import ViewWriter.Proofs.Name.Camel
import ViewWriter.Proofs.Name.Case
import ViewWriter.Proofs.Number.Digits
import ViewWriter.Proofs.Script.Identifier
import ViewWriter.Proofs.Text.Needle

/-! The characters of names. In every spelling they are hyphens or can stand in an identifier, so that a
name has neither points nor slashes. -/

namespace ViewWriter.Name

open ViewWriter.Text

def isNameChar (c : Char) : Bool := isIdentifierPart c || c == '-'

/-- A text of characters that names have. -/
def IsNamed (s : String) : Prop := ∀ c ∈ s.toList, isNameChar c = true

instance (s : String) : Decidable (IsNamed s) := List.decidableBAll _ _

variable {c : Char} {s name : String}

lemma isStop_of_nameChar (h : isNameChar c = true) : isStop c = false := by
  rw [isNameChar, Bool.or_eq_true] at h
  rcases h with h | h <;> simp [isStop, h]

lemma isBlank_of_nameChar (h : isNameChar c = true) : isBlank c = false := by
  refine Bool.eq_false_iff.2 fun hblank => ?_
  rw [isNameChar, Script.isIdentifierPart_of_blank hblank, Bool.false_or, beq_iff_eq] at h
  subst h
  exact absurd hblank (by decide)

lemma IsNamed.slash_notMem (h : IsNamed s) : '/' ∉ s.toList := fun hm => absurd (h _ hm) (by decide)

lemma IsNamed.point_notMem (h : IsNamed s) : '.' ∉ s.toList := fun hm => absurd (h _ hm) (by decide)

lemma IsNamed.avoids (h : IsNamed s) (n : Needle) : n.Avoids s.toList :=
  Needle.avoids_of_notMem_slash h.slash_notMem

lemma IsNamed.append {t : String} (hs : IsNamed s) (ht : IsNamed t) : IsNamed (s ++ t) := by
  rw [IsNamed, String.toList_append, List.forall_mem_append]
  exact ⟨hs, ht⟩

lemma isNameChar_of_alphanumeric (h : isAsciiAlphanumeric c = true) :
    isNameChar c = true ∧ isNameChar (asciiLower c) = true :=
  of_alphanumeric (P := fun c => isNameChar c = true ∧ isNameChar (asciiLower c) = true) (by decide) h

lemma isNamed_kebab (name : String) : IsNamed (kebab name) := by
  rw [IsNamed, kebab, String.toList_ofList, kebabChars]
  intro c hc
  rcases mem_joinWith hc with hc | ⟨word, hword, hc⟩
  · rw [List.mem_singleton.1 hc]
    decide
  · obtain ⟨d, -, hd, rfl⟩ := exists_of_mem_wordChars hword hc
    exact (isNameChar_of_alphanumeric hd).2

lemma isNamed_orDefault {default : String} (h : IsNamed default) (name : String) :
    IsNamed (orDefault (kebab name) default) := by
  rw [orDefault]
  split_ifs
  · exact h
  · exact isNamed_kebab name

lemma exists_styleClass (prefixName : Option String) (type id : String) :
    ∃ own, IsNamed own ∧
      styleClass prefixName type id = prefixName.elim own fun p => p ++ "-" ++ own := by
  have hown : IsNamed (orDefault (kebab type) "node" ++ "-" ++ orDefault (kebab id) "x") :=
    ((isNamed_orDefault (by decide) type).append (by decide)).append (isNamed_orDefault (by decide) id)
  refine ⟨_, hown, ?_⟩
  cases prefixName <;> exact String.toList_inj.1 (by simp [styleClass, join, joinWith])

lemma isNamed_styleClass {prefixName : Option String} (h : ∀ p, prefixName = some p → IsNamed p)
    (type id : String) : IsNamed (styleClass prefixName type id) := by
  obtain ⟨own, hown, hclass⟩ := exists_styleClass prefixName type id
  rw [hclass]
  cases prefixName with
  | none => exact hown
  | some p => exact ((h p rfl).append (by decide)).append hown

lemma isNamed_toString (n : ℕ) : IsNamed (toString n) := by
  intro c hc
  have hdigit : isAsciiDigit c = true := by
    refine Number.isAsciiDigit_of_toDigits (n := n) ?_
    rwa [← String.toList_ofList (l := Nat.toDigits 10 n), ← Nat.repr_eq_ofList_toDigits]
  exact (isNameChar_of_alphanumeric (by simp [isAsciiAlphanumeric, hdigit])).1

lemma isNamed_component {default : String} (h : IsNamed default) (name : String) :
    IsNamed (component name default) := by
  have hpascal : ∀ c ∈ pascalChars name.toList, isNameChar c = true := fun c hc =>
    (isNameChar_of_alphanumeric (alphanumeric_of_mem_pascalChars hc)).1
  rw [component]
  split
  · exact h
  · rename_i c rest hchars
    rw [hchars] at hpascal
    split_ifs
    · exact IsNamed.append (s := "Component") (by decide) (by rwa [IsNamed, String.toList_ofList])
    · rwa [IsNamed, String.toList_ofList]

lemma isNamed_identifier (h : isIdentifier s.toList = true) : IsNamed s := fun c hc => by
  rw [isNameChar, (Script.parts_of_isIdentifier h).2 c hc]
  rfl

lemma isIdentifier_of_ascii {cs : List Char} (h : isAsciiIdentifier cs = true) :
    isIdentifier cs = true := by
  have hpart (c : Char) (hc : isAsciiIdentifierPart c = true) : isIdentifierPart c = true := by
    simp only [isAsciiIdentifierPart, Bool.or_eq_true, beq_iff_eq] at hc
    rcases hc with (hc | rfl) | rfl
    · exact of_alphanumeric (P := fun c => isIdentifierPart c = true) (by decide) hc
    · decide
    · decide
  cases cs with
  | nil => cases h
  | cons c rest =>
    rw [isAsciiIdentifier, Bool.and_eq_true, List.all_eq_true] at h
    rw [isIdentifier, Bool.and_eq_true, List.all_eq_true]
    exact ⟨h.1, fun d hd => hpart d (h.2 d hd)⟩

lemma isNamed_variableName (name : String) : IsNamed (Sanitizer.variableName name) :=
  isNamed_identifier (isIdentifier_of_ascii (isAsciiIdentifier_variableName name))

lemma isNamed_setter (name : String) : IsNamed (setter (Sanitizer.variableName name)) := by
  have hname := isAsciiIdentifier_variableName name
  have hchars := isNamed_variableName name
  generalize Sanitizer.variableName name = spelled at hname hchars
  rw [IsNamed] at hchars
  cases hspelled : spelled.toList with
  | nil => rw [hspelled] at hname; cases hname
  | cons c rest =>
    rw [hspelled, isAsciiIdentifier, Bool.and_eq_true] at hname
    rw [hspelled, List.forall_mem_cons] at hchars
    have hcapital : (capitalForm c).all isNameChar = true := by
      simp only [isIdentifierStart, Bool.or_eq_true, beq_iff_eq] at hname
      rcases hname.1 with (hc | rfl) | rfl
      · have hletter : isAsciiAlphanumeric c = true := by simp [isAsciiAlphanumeric, hc]
        exact of_alphanumeric (P := fun c => (capitalForm c).all isNameChar = true) (by decide) hletter
      · decide
      · decide
    have hset : (setter spelled).toList = "set".toList ++ (capitalForm c ++ rest) := by
      simp [setter, hspelled]
    rw [IsNamed, hset, List.forall_mem_append, List.forall_mem_append]
    exact ⟨List.all_eq_true.1 (by decide), List.all_eq_true.1 hcapital, hchars.2⟩

/-- A name that can be bound may have a line break at its end. -/
lemma slash_notMem_of_binding (h : isBinding name = true) : '/' ∉ name.toList := by
  rw [isBinding, Bool.and_eq_true] at h
  intro hm
  have hkept : '/' ∈ withoutFinalBreak name.toList := by
    rw [withoutFinalBreak]
    split_ifs with hbreak
    · obtain ⟨before, hbefore⟩ : ∃ before, name.toList = before ++ ['\n'] :=
        List.getLast?_eq_some_iff.1 (beq_iff_eq.1 hbreak)
      rw [hbefore, List.dropLast_concat]
      rw [hbefore, List.mem_append, List.mem_singleton] at hm
      exact hm.resolve_right (by decide)
    · exact hm
  have hnamed := isNamed_identifier (s := String.ofList (withoutFinalBreak name.toList))
    (by rw [String.toList_ofList]; exact isIdentifier_of_ascii h.1)
  refine hnamed.slash_notMem ?_
  rwa [String.toList_ofList]

end ViewWriter.Name
