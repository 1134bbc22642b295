import ViewWriter.Proofs.Text.Needle
import ViewWriter.Proofs.Text.Replacing
import ViewWriter.Proofs.Text.Tidying
import ViewWriter.Template.Helper

/-! Markup between backticks. A script reads the inside of a template literal back as the markup with its
margins, and comes to its end without a backtick or a substitution on the way. -/

namespace ViewWriter.Text

section Characters

variable {c : Char} {cs rest : List Char}

/-- Characters that get a backslash wherever they stand. -/
def isTemplateMark (c : Char) : Bool := c == '\\' || c == '`'

lemma template_induction {P : List Char → Prop} (nil : P [])
    (opening : ∀ rest, P rest → P ('$' :: '\x7b' :: rest))
    (mark : ∀ c rest, isTemplateMark c = true → P rest → P (c :: rest))
    (kept : ∀ c rest, isTemplateMark c = false → (c = '$' → rest.head? ≠ some '\x7b') → P rest →
      P (c :: rest)) (cs : List Char) : P cs := by
  fun_induction templateChars cs with
  | case1 => exact nil
  | case2 rest ih => exact opening rest ih
  | case3 c rest _ hc ih => exact mark c rest hc ih
  | case4 c rest hopening hc ih =>
    refine kept c rest (Bool.eq_false_iff.2 hc) (fun hdollar hbrace => ?_) ih
    obtain ⟨more, rfl⟩ := List.head?_eq_some_iff.1 hbrace
    exact hopening more hdollar rfl

lemma templateChars_opening (rest : List Char) :
    templateChars ('$' :: '\x7b' :: rest) = '\\' :: '$' :: '\x7b' :: templateChars rest := by
  rw [templateChars]

lemma templateChars_mark (hc : isTemplateMark c = true) (rest : List Char) :
    templateChars (c :: rest) = '\\' :: c :: templateChars rest := by
  rw [templateChars.eq_3]
  · exact if_pos hc
  · rintro more rfl -
    cases hc

lemma templateChars_kept (hc : isTemplateMark c = false) (h : c = '$' → rest.head? ≠ some '\x7b') :
    templateChars (c :: rest) = c :: templateChars rest := by
  rw [templateChars.eq_3]
  · exact if_neg (Bool.eq_false_iff.1 hc)
  · rintro more rfl rfl
    exact h rfl rfl

lemma Needle.escaped_templateChars (cs : List Char) : Escaped cs (templateChars cs) := by
  have hgap : isGap ['\\'] = true := by decide
  induction cs using template_induction with
  | nil => exact .nil
  | opening rest ih =>
    rw [templateChars_opening]
    exact .added hgap (.kept _ (.kept _ ih))
  | mark c rest hc ih =>
    rw [templateChars_mark hc]
    exact .added hgap (.kept c ih)
  | kept c rest hc hopening ih =>
    rw [templateChars_kept hc hopening]
    exact .kept c ih

end Characters

section Lines

variable {c : Char}

end Lines

section Steps

end Steps

end ViewWriter.Text

namespace ViewWriter.Template.Helper

open ViewWriter.Text

end ViewWriter.Template.Helper
