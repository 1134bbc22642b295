import ViewWriter.Proofs.Json.Texts
import ViewWriter.Proofs.Template.Following
import ViewWriter.Proofs.Template.TemplateLiteral
import ViewWriter.Template.Render

/-! Calls of the helpers that templates come with. What such a call writes of a value avoids a needle
if the texts of the value do. -/

namespace ViewWriter.Template

open ViewWriter.Text

def standardHelpers : List (String × Helper) :=
  Helper.shared ++ [("docComment", Helper.docComment), ("templateLiteral", Helper.templateLiteral),
    ("htmlEscape", Helper.htmlEscape)]

/-- Helpers with the operands after the first, with which they write no needle. -/
def mildCalls : List (String × List String) := [
  ("join", ["\", \""]), ("indent", ["2"]), ("indent", ["4"]), ("indent", ["6"]), ("comment", []),
  ("json", []), ("default", ["\"en\""]), ("docComment", []), ("templateLiteral", ["4"]),
  ("htmlEscape", [])]

section Writing

variable {n : Needle} {v w r : Json}

lemma avoids_stringify (h : v.Avoids n) : n.Avoids (stringify v).toList := by
  cases v with
  | null => exact Needle.avoids_nil
  | bool b => cases b <;> exact avoids_word (by decide)
  | int i => exact avoids_of_numeric (isNumeric_int i)
  | float x =>
    rw [stringify, Number.writeWhole]
    split
    · exact avoids_of_numeric (isNumeric_int _)
    · exact avoids_of_numeric (isNumeric_plain x)
  | str s => exact Json.avoids_str.1 h
  | arr items => exact Json.avoids_compact .ascii _ h
  | obj fields => exact Json.avoids_compact .ascii _ h

namespace Helper

lemma avoids_text (h : v.Avoids n) : n.Avoids (text v).toList := by
  rw [text]
  split_ifs
  · exact Needle.avoids_nil
  · exact h.display

/-- Only the first argument counts. -/
def Keeps (n : Needle) (f : Helper) (more : List Json) : Prop :=
  ∀ v r, v.Avoids n → f (v :: more) = .ok r → r.Avoids n

lemma keeps_join : Keeps n join [.str ", "] := by
  intro v r hv h
  have hjoin (xs : List String) (hxs : ∀ x ∈ xs, n.Avoids x.toList) :
      (Json.str (Text.join ", " xs)).Avoids n := by
    rw [Json.avoids_str, Text.join, String.toList_ofList]
    exact Needle.avoids_joinWith (by decide) (List.forall_mem_map.2 hxs)
  have hitems (h : (v.elements.map fun vs => Json.str (Text.join ", " (vs.map text))) = .ok r) :
      r.Avoids n := by
    obtain ⟨vs, hvs, rfl⟩ := map_eq_ok_iff.1 h
    exact hjoin _ (List.forall_mem_map.2 fun x hx => avoids_text (hv.elements hvs x hx))
  cases v with
  | null =>
    cases h
    exact Json.avoids_str.2 Needle.avoids_nil
  | str s =>
    cases h
    exact hv
  | _ => exact hitems h

lemma margin_cases {m : List Char} (h : margin w = .ok m) : ∃ i, m = spaces i := by
  obtain ⟨i, -, h⟩ := bind_eq_ok_iff.1 h
  split_ifs at h
  cases h
  exact ⟨i, rfl⟩

lemma keeps_indent (w : Json) : Keeps n indent [w] := by
  intro v r hv h
  obtain ⟨m, hm, rfl⟩ := map_eq_ok_iff.1 h
  obtain ⟨i, rfl⟩ := margin_cases hm
  rw [Json.avoids_str, String.toList_ofList]
  exact (avoids_text hv).markLines (Needle.leads_spaces i)

lemma keeps_comment : Keeps n comment [] := by
  intro v r hv h
  cases h
  rw [commentWith, Json.avoids_str, String.toList_ofList]
  exact (avoids_text hv).markLines (Needle.leads_of_slashes (by decide))

lemma keeps_json : Keeps n json [] := by
  intro v r hv h
  cases h
  exact Json.avoids_str.2 (Json.avoids_compact .unicode v hv)

lemma keeps_default (hw : w.Avoids n) : Keeps n default [w] := by
  intro v r hv h
  cases h
  split_ifs
  · exact hw
  · exact hv

lemma keeps_docComment : Keeps n docComment [] := by
  intro v r hv h
  rw [docComment, docCommentAt] at h
  split_ifs at h
  · obtain ⟨m, hm, rfl⟩ := map_eq_ok_iff.1 h
    obtain ⟨i, rfl⟩ := margin_cases hm
    rw [Json.avoids_str, String.toList_ofList]
    exact hv.display.commentBlock i
  · cases h
    exact Json.avoids_str.2 Needle.avoids_nil

lemma keeps_templateLiteral (w : Json) : Keeps n templateLiteral [w] := by
  intro v r hv h
  obtain ⟨m, hm, rfl⟩ := map_eq_ok_iff.1 h
  obtain ⟨i, rfl⟩ := margin_cases hm
  rw [Json.avoids_str, String.toList_ofList]
  exact ((avoids_text hv).escaped (Needle.escaped_templateChars _)).markLines (Needle.leads_spaces i)

/-- What is escaped counts even if it has the needle, where the needle begins with an angle
bracket. -/
lemma avoids_htmlEscape (h : n.head = '<' ∨ v.Avoids n) (hr : htmlEscape [v] = .ok r) :
    r.Avoids n := by
  cases hr
  exact Json.avoids_str.2 (Needle.isEntity_quoted.avoids (h.imp_right avoids_text))

end Helper

lemma avoids_call {name : String} {f : Helper} {more : List String} {vs : List Json} {context : Json}
    (hf : (name, f) ∈ standardHelpers) (hmild : (name, more) ∈ mildCalls)
    (hvs : more.mapM (fun a => resolveOperand a context) = .ok vs)
    (hv : v.Avoids n ∨ (name = "htmlEscape" ∧ n.head = '<')) :
    n.Avoids (callText f (v :: vs)).toList := by
  have hkeeps (hname : name ≠ "htmlEscape") (hkept : Helper.Keeps n f vs) :
      n.Avoids (callText f (v :: vs)).toList := by
    have hv := hv.resolve_right fun h => hname h.1
    rw [callText]
    split
    · rename_i r hr
      exact avoids_stringify (hkept v r hv hr)
    · exact Needle.avoids_nil
  have hone {a : String} (h : [a].mapM (fun a => resolveOperand a context) = .ok vs) :
      ∃ w, vs = [w] := by
    rw [List.mapM_cons] at h
    obtain ⟨w, -, h⟩ := bind_eq_ok_iff.1 h
    cases h
    exact ⟨w, rfl⟩
  simp only [mildCalls, List.mem_cons, Prod.mk.injEq, List.not_mem_nil, or_false] at hmild
  simp only [standardHelpers, Helper.shared, List.cons_append, List.nil_append, List.mem_cons,
    Prod.mk.injEq, List.not_mem_nil, or_false] at hf
  rcases hmild with ⟨rfl, rfl⟩ | ⟨rfl, rfl⟩ | ⟨rfl, rfl⟩ | ⟨rfl, rfl⟩ | ⟨rfl, rfl⟩ | ⟨rfl, rfl⟩ |
    ⟨rfl, rfl⟩ | ⟨rfl, rfl⟩ | ⟨rfl, rfl⟩ | ⟨rfl, rfl⟩
  · obtain rfl : f = Helper.join := by simpa using hf
    cases hvs
    exact hkeeps (by decide) Helper.keeps_join
  iterate 3
    obtain rfl : f = Helper.indent := by simpa using hf
    obtain ⟨w, rfl⟩ := hone hvs
    exact hkeeps (by decide) (Helper.keeps_indent w)
  · obtain rfl : f = Helper.comment := by simpa using hf
    cases hvs
    exact hkeeps (by decide) Helper.keeps_comment
  · obtain rfl : f = Helper.json := by simpa using hf
    cases hvs
    exact hkeeps (by decide) Helper.keeps_json
  · obtain rfl : f = Helper.default := by simpa using hf
    cases hvs
    exact hkeeps (by decide) (Helper.keeps_default (Json.avoids_str.2 (avoids_word (by decide))))
  · obtain rfl : f = Helper.docComment := by simpa using hf
    cases hvs
    exact hkeeps (by decide) Helper.keeps_docComment
  · obtain rfl : f = Helper.templateLiteral := by simpa using hf
    obtain ⟨w, rfl⟩ := hone hvs
    exact hkeeps (by decide) (Helper.keeps_templateLiteral w)
  · obtain rfl : f = Helper.htmlEscape := by simpa using hf
    cases hvs
    rw [callText]
    split
    · rename_i r hr
      exact avoids_stringify (Helper.avoids_htmlEscape (hv.symm.imp_left (·.2)) hr)
    · exact Needle.avoids_nil

end Writing

end ViewWriter.Template
