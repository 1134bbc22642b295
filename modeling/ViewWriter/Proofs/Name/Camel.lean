import Mathlib.Tactic.SplitIfs
import ViewWriter.Name.Sanitizer
import ViewWriter.Proofs.Name.Case

/-! Names of variables. They are script identifiers, and a name stays what it is if it begins with a
small letter, is spelled out and is not kept back. -/

namespace ViewWriter.Name

open ViewWriter.Text

/-- A small letter and what is spelled out after it. -/
def isCamel (name : String) : Bool := name.toList.head?.any isAsciiLower && isSpelledOut name.toList

/-- A name that a variable has as it is given: a camel case name, with an underscore if it is kept back. -/
inductive IsVariable : String → Prop
  | free {name : String} : isCamel name → Sanitizer.script.isKept name = false → IsVariable name
  | marked {kept : String} : isCamel kept → Sanitizer.script.isKept kept → IsVariable (kept ++ "_")

section Words

variable {c : Char} {cs rest : List Char}

lemma wordChars_skip (hc : isAsciiAlphanumeric c = false) : wordChars (c :: rest) = wordChars rest := by
  rw [wordChars.eq_def]
  simp [hc]

lemma wordChars_cons (hc : isAsciiAlphanumeric c = true) (rest : List Char) :
    ∃ word words, wordChars (c :: rest) = (asciiLower c :: word) :: words := by
  rw [wordChars.eq_def]
  simp only [hc, Bool.not_true, Bool.false_eq_true, if_false]
  split
  · exact ⟨[], [], rfl⟩
  · split_ifs
    · exact ⟨[], _, rfl⟩
    · split
      · exact ⟨[], [], rfl⟩
      · exact ⟨_, _, rfl⟩

lemma wordChars_append_mark (hc : isAsciiAlphanumeric c = false) (cs : List Char) :
    wordChars (cs ++ [c]) = wordChars cs := by
  induction cs with
  | nil => exact wordChars_skip hc
  | cons d rest ih =>
    by_cases hd : isAsciiAlphanumeric d = true
    · cases rest with
      | nil => simp [wordChars, hd, hc]
      | cons e more =>
        -- whether a word ends at `d` depends on the character after the next, if it is a small letter
        have hlower : isAsciiLower c = false := by
          simp only [isAsciiAlphanumeric, isAsciiLetter, Bool.or_eq_false_iff] at hc
          exact hc.1.2
        have hnext : isBoundary d e (more ++ [c]).head? = isBoundary d e more.head? := by
          cases more <;> simp [isBoundary, hlower]
        rw [List.cons_append, List.cons_append, wordChars.eq_def, wordChars.eq_def (d :: e :: more)]
        simp only [hnext]
        rw [← List.cons_append, ih]
    · rw [List.cons_append, wordChars_skip (by simpa using hd), ih, wordChars_skip (by simpa using hd)]

lemma asciiLower_asciiUpper_asciiLower (hc : isAsciiAlphanumeric c = true) :
    asciiLower (asciiUpper (asciiLower c)) = asciiLower c :=
  of_alphanumeric (P := fun c => asciiLower (asciiUpper (asciiLower c)) = asciiLower c) (by decide) hc

lemma camelChars_of_words {word : List Char} {words : List (List Char)}
    (hc : isAsciiAlphanumeric c = true) (h : wordChars cs = (asciiLower c :: word) :: words) :
    camelChars cs = asciiLower c :: (word ++ words.flatMap capitalizeChars) := by
  have hpascal : pascalChars cs =
      asciiUpper (asciiLower c) :: (word ++ words.flatMap capitalizeChars) := by
    rw [pascalChars, h, List.flatMap_cons, capitalizeChars, List.cons_append]
  simp only [camelChars, hpascal, asciiLower_asciiUpper_asciiLower hc]

lemma camelChars_cons (hc : isAsciiAlphanumeric c = true) (rest : List Char) :
    ∃ more, camelChars (c :: rest) = asciiLower c :: more := by
  obtain ⟨word, words, hwords⟩ := wordChars_cons hc rest
  exact ⟨_, camelChars_of_words hc hwords⟩

lemma camelChars_append_mark (hc : isAsciiAlphanumeric c = false) (cs : List Char) :
    camelChars (cs ++ [c]) = camelChars cs := by
  simp only [camelChars, pascalChars, wordChars_append_mark hc]

lemma alphanumeric_of_mem_pascalChars (h : c ∈ pascalChars cs) : isAsciiAlphanumeric c = true := by
  obtain ⟨word, hword, h⟩ := List.mem_flatMap.1 h
  have hlow : ∀ d ∈ word, isAsciiAlphanumeric d = true ∧ isAsciiAlphanumeric (asciiUpper d) = true := by
    intro d hd
    obtain ⟨e, -, he, rfl⟩ := exists_of_mem_wordChars hword hd
    exact of_alphanumeric (P := fun e => isAsciiAlphanumeric (asciiLower e) = true ∧
      isAsciiAlphanumeric (asciiUpper (asciiLower e)) = true) (by decide) he
  cases word with
  | nil => cases h
  | cons d more =>
    rcases List.mem_cons.1 h with rfl | h
    · exact (hlow d List.mem_cons_self).2
    · exact (hlow c (List.mem_cons_of_mem _ h)).1

lemma alphanumeric_of_mem_camelChars (h : c ∈ camelChars cs) : isAsciiAlphanumeric c = true := by
  rw [camelChars] at h
  split at h
  · cases h
  · rename_i d more hpascal
    have hd : isAsciiAlphanumeric d = true :=
      alphanumeric_of_mem_pascalChars (hpascal ▸ List.mem_cons_self)
    rcases List.mem_cons.1 h with rfl | h
    · exact of_alphanumeric (P := fun d => isAsciiAlphanumeric (asciiLower d) = true) (by decide) hd
    · exact alphanumeric_of_mem_pascalChars (hpascal ▸ List.mem_cons_of_mem _ h)

lemma camelChars_eq_self_iff :
    camelChars (c :: rest) = c :: rest ↔ isAsciiUpper c = false ∧ isSpelledOut (c :: rest) = true := by
  -- what is neither letter nor digit is in no word, so that either side excludes it
  have hwhole (h : ∀ d ∈ c :: rest, isAsciiAlphanumeric d = true) :
      camelChars (c :: rest) = c :: rest ↔
        isAsciiUpper c = false ∧ isSpelledOut (c :: rest) = true := by
    obtain ⟨word, words, hwords, hrest⟩ := wordChars_alphanumeric h
    rw [camelChars_of_words (h c List.mem_cons_self) hwords, List.cons.injEq, hrest,
      asciiLower_eq_self_iff]
  refine ⟨fun heq => (hwhole fun d hd => ?_).1 heq, fun h => ?_⟩
  · exact alphanumeric_of_mem_camelChars (heq ▸ hd)
  · exact (hwhole (alphanumeric_of_spelledOut h.2)).2 h

end Words

section Variables

variable {name : String}

lemma isCamel_iff : isCamel name = true ↔
    camel name = name ∧ ∃ c ∈ name.toList.head?, isDigit c = false := by
  rw [isCamel, camel, ← String.toList_inj, String.toList_ofList]
  cases hname : name.toList with
  | nil => simp
  | cons c rest =>
    rw [camelChars_eq_self_iff]
    simp only [List.head?_cons, Option.any_some, Bool.and_eq_true, Option.mem_def, Option.some.injEq,
      exists_eq_left']
    have hfirst (h : isSpelledOut (c :: rest) = true) :
        isAsciiLower c = true ↔ isAsciiUpper c = false ∧ isDigit c = false := by
      have hc := alphanumeric_of_spelledOut h c List.mem_cons_self
      exact of_alphanumeric (P := fun c => isAsciiLower c = true ↔
        isAsciiUpper c = false ∧ isDigit c = false) (by decide) hc
    constructor
    · rintro ⟨hlower, hspelled⟩
      obtain ⟨hupper, hdigit⟩ := (hfirst hspelled).1 hlower
      exact ⟨⟨hupper, hspelled⟩, hdigit⟩
    · rintro ⟨⟨hupper, hspelled⟩, hdigit⟩
      exact ⟨(hfirst hspelled).2 ⟨hupper, hdigit⟩, hspelled⟩

lemma not_kept_of_underscore (h : '_' ∈ name.toList) : Sanitizer.script.isKept name = false := by
  have hlower (before cs : List Char) (hmem : '_' ∈ cs) : '_' ∈ lowerAfter before cs := by
    induction cs generalizing before with
    | nil => cases hmem
    | cons c rest ih =>
      rw [lowerAfter]
      rcases List.mem_cons.1 hmem with rfl | hmem
      · have hsmall : '_' ∈ smallForm '_' := by decide
        exact List.mem_append_left _ (by rwa [if_neg (by decide)])
      · exact List.mem_append_right _ (ih _ hmem)
  have hlists : ∀ kept ∈ reservedWords ++ Name.protectedNames, '_' ∉ kept.toList := by decide +kernel
  have hmem : '_' ∈ (lower name).toList := by
    rw [lower, String.toList_ofList]
    exact hlower [] name.toList h
  rw [Sanitizer.isKept, Bool.or_eq_false_iff]
  constructor <;> rw [Bool.eq_false_iff, ne_eq, List.contains_iff_mem]
  · exact fun hkept => hlists _ (List.mem_append_left _ hkept) hmem
  · exact fun hkept => hlists _ (List.mem_append_right _ hkept) hmem

lemma variableName_of_spelled (spelled : String) {c : Char} {rest : List Char}
    (h : orDefault (camel name) "value" = spelled) (hspelled : spelled.toList = c :: rest) :
    Sanitizer.variableName name =
      if isDigit c then "value_" ++ spelled
      else if Sanitizer.script.isKept spelled then spelled ++ "_" else spelled := by
  have hjoiner : (if NameCase.camel == .kebab then "-" else "_") = "_" := rfl
  have hled : "value" ++ "_" = "value_" := by decide
  simp only [Sanitizer.variableName, Sanitizer.natural, spell, h, hspelled, hjoiner, hled]
  by_cases hdigit : isDigit c = true
  · have hkept : Sanitizer.script.isKept ("value_" ++ spelled) = false :=
      not_kept_of_underscore (by simp)
    rw [if_pos hdigit, if_pos hdigit, hkept, if_neg Bool.false_ne_true]
  · rw [if_neg hdigit, if_neg hdigit]

/-- The forms of a variable: that of no word, that of words after a digit, and all others. -/
lemma variableName_cases (name : String) :
    camel name = "" ∧ Sanitizer.variableName name = "value" ∨
    (∃ c ∈ (camel name).toList.head?, isDigit c = true ∧
      Sanitizer.variableName name = "value_" ++ camel name) ∨
    ∃ c ∈ (camel name).toList.head?, isDigit c = false ∧ Sanitizer.variableName name =
      if Sanitizer.script.isKept (camel name) then camel name ++ "_" else camel name := by
  cases hcamel : (camel name).toList with
  | nil =>
    have hempty : camel name = "" := String.toList_inj.1 hcamel
    refine .inl ⟨hempty, ?_⟩
    rw [variableName_of_spelled "value" (by rw [hempty]; rfl) rfl]
    decide +kernel
  | cons c rest =>
    have hne : camel name ≠ "" := fun h => by simp [h] at hcamel
    have hspelled : orDefault (camel name) "value" = camel name := if_neg (by simpa using hne)
    rw [variableName_of_spelled _ hspelled hcamel]
    by_cases hdigit : isDigit c = true
    · exact .inr (.inl ⟨c, rfl, hdigit, if_pos hdigit⟩)
    · exact .inr (.inr ⟨c, rfl, by simpa using hdigit, if_neg hdigit⟩)

lemma variableName_of_camel {spelled : String} (hname : camel name = spelled)
    (h : isCamel spelled = true) : Sanitizer.variableName name =
      if Sanitizer.script.isKept spelled then spelled ++ "_" else spelled := by
  obtain ⟨-, c, hc, hdigit⟩ := isCamel_iff.1 h
  obtain ⟨rest, hspelled⟩ := List.head?_eq_some_iff.1 hc
  have hne : spelled ≠ "" := fun h => by simp [h] at hspelled
  rw [variableName_of_spelled _ ((congrArg (orDefault · "value") hname).trans
    (if_neg (by simpa using hne))) hspelled, if_neg (by simp [hdigit])]

lemma head?_camel_value (s : String) : (camel ("value_" ++ s)).toList.head? = some 'v' := by
  have hletters : "value_".toList = 'v' :: "alue_".toList := by decide
  obtain ⟨more, hmore⟩ := camelChars_cons (c := 'v') (by decide) ("alue_".toList ++ s.toList)
  rw [camel, String.toList_ofList, String.toList_append, hletters, List.cons_append, hmore]
  rfl

lemma variableName_eq_self_iff : Sanitizer.variableName name = name ↔ IsVariable name := by
  have hmark (s : String) : camel (s ++ "_") = camel s := by
    have hlast : "_".toList = ['_'] := by decide
    rw [camel, camel, String.toList_append, hlast, camelChars_append_mark (by decide)]
  constructor
  · intro h
    obtain ⟨hempty, hvalue⟩ | ⟨c, hc, hdigit, hvalue⟩ | ⟨c, hc, hdigit, hvalue⟩ :=
      variableName_cases name
    · rw [h] at hvalue
      subst hvalue
      exact absurd hempty (by decide)
    · -- the camel case of `value_…` begins with a letter, not with the digit of `name`
      rw [h] at hvalue
      have hhead := head?_camel_value (camel name)
      rw [← hvalue, hc] at hhead
      cases hhead
      exact absurd hdigit (by decide)
    · rw [h] at hvalue
      split_ifs at hvalue with hkept
      · rw [hvalue]
        refine .marked (isCamel_iff.2 ⟨?_, c, hc, hdigit⟩) hkept
        rw [← hmark, ← hvalue]
      · exact .free (isCamel_iff.2 ⟨hvalue.symm, c, hvalue ▸ hc, hdigit⟩)
          (by rw [hvalue]; simpa using hkept)
  · intro h
    cases h with
    | free hname hkept =>
      rw [variableName_of_camel (isCamel_iff.1 hname).1 hname, hkept, if_neg Bool.false_ne_true]
    | marked hname hkept =>
      rw [variableName_of_camel ((hmark _).trans (isCamel_iff.1 hname).1) hname, if_pos hkept]

lemma isAsciiIdentifier_variableName (name : String) :
    isAsciiIdentifier (Sanitizer.variableName name).toList = true := by
  have hpart : ∀ c ∈ (camel name).toList, isAsciiIdentifierPart c = true := by
    intro c hc
    rw [camel, String.toList_ofList] at hc
    simp [isAsciiIdentifierPart, alphanumeric_of_mem_camelChars hc]
  obtain ⟨-, hvalue⟩ | ⟨c, -, -, hvalue⟩ | ⟨c, hc, hdigit, hvalue⟩ := variableName_cases name <;>
    rw [hvalue]
  · decide
  · have hletters : "value_".toList = 'v' :: "alue_".toList := by decide
    rw [String.toList_append, hletters, List.cons_append, isAsciiIdentifier, Bool.and_eq_true,
      List.all_append, Bool.and_eq_true, List.all_eq_true (l := (camel name).toList)]
    exact ⟨by decide, by decide, hpart⟩
  · obtain ⟨rest, hcamel⟩ := List.head?_eq_some_iff.1 hc
    have hletter : isIdentifierStart c = true := by
      have halphanumeric : isAsciiAlphanumeric c = true := by
        have hmem : c ∈ camelChars name.toList := by
          rw [← String.toList_ofList (l := camelChars name.toList), ← camel, hcamel]
          exact List.mem_cons_self
        exact alphanumeric_of_mem_camelChars hmem
      have hstart : isDigit c = false → isIdentifierStart c = true :=
        of_alphanumeric (P := fun c => isDigit c = false → isIdentifierStart c = true) (by decide)
          halphanumeric
      exact hstart hdigit
    have hrest : rest.all isAsciiIdentifierPart = true :=
      List.all_eq_true.2 fun d hd => hpart d (hcamel ▸ List.mem_cons_of_mem _ hd)
    split_ifs
    · rw [String.toList_append, hcamel, List.cons_append, isAsciiIdentifier, hletter, List.all_append,
        hrest]
      decide
    · rw [hcamel, isAsciiIdentifier, hletter, hrest]
      rfl

lemma oneLine_of_identifier (h : isAsciiIdentifier name.toList = true) :
    OneLine name ∧ OneLine (setter name) := by
  cases hname : name.toList with
  | nil => simp [hname, isAsciiIdentifier] at h
  | cons c rest =>
    rw [hname, isAsciiIdentifier, Bool.and_eq_true, List.all_eq_true] at h
    obtain ⟨hc, hparts⟩ := h
    have hrest : '\n' ∉ rest := fun hbreak => absurd (hparts _ hbreak) (by decide)
    have hfirst : c ≠ '\n' ∧ '\n' ∉ capitalForm c := by
      simp only [isIdentifierStart, Bool.or_eq_true, beq_iff_eq] at hc
      rcases hc with (hc | rfl) | rfl
      · have hletter : isAsciiAlphanumeric c = true := by simp [isAsciiAlphanumeric, hc]
        exact of_alphanumeric (P := fun c => c ≠ '\n' ∧ '\n' ∉ capitalForm c) (by decide) hletter
      · decide
      · decide
    have hset : (setter name).toList = "set".toList ++ (capitalForm c ++ rest) := by
      simp [setter, hname]
    refine ⟨?_, ?_⟩
    · rw [OneLine, hname, List.mem_cons, not_or]
      exact ⟨hfirst.1.symm, hrest⟩
    · rw [OneLine, hset]
      exact notMem_append (by decide) (notMem_append hfirst.2 hrest)

end Variables

end ViewWriter.Name

/-! Names of variables among each other and beside the names that are kept. They begin with a small
letter, so that their setters differ where they do. -/

namespace ViewWriter.Name

open ViewWriter.Text

open ViewWriter.Name.Sanitizer (variableName)

variable {a b name : String} {c d : Char}

/-- A text that begins with a small letter. -/
def StartsSmall (s : String) : Prop := ∃ c ∈ s.toList.head?, isAsciiLower c = true

lemma startsSmall_append (h : StartsSmall a) (b : String) : StartsSmall (a ++ b) := by
  obtain ⟨c, hc, hsmall⟩ := h
  obtain ⟨rest, hrest⟩ := List.head?_eq_some_iff.1 hc
  refine ⟨c, ?_, hsmall⟩
  rw [String.toList_append, hrest]
  rfl

lemma startsSmall_camel (hc : c ∈ (camel name).toList.head?) (hdigit : isDigit c = false) :
    StartsSmall (camel name) := by
  refine ⟨c, hc, ?_⟩
  obtain ⟨rest, hrest⟩ := List.head?_eq_some_iff.1 hc
  rw [camel, String.toList_ofList, camelChars] at hrest
  split at hrest
  · cases hrest
  · rename_i d more hpascal
    obtain ⟨rfl, -⟩ := List.cons.inj hrest
    have hd : isAsciiAlphanumeric d = true :=
      alphanumeric_of_mem_pascalChars (hpascal ▸ List.mem_cons_self)
    have hsmall : isDigit (asciiLower d) = false → isAsciiLower (asciiLower d) = true :=
      of_alphanumeric (P := fun d => isDigit (asciiLower d) = false →
        isAsciiLower (asciiLower d) = true) (by decide) hd
    exact hsmall hdigit

lemma startsSmall_variableName (name : String) : StartsSmall (variableName name) := by
  obtain ⟨-, hvalue⟩ | ⟨c, -, -, hvalue⟩ | ⟨c, hc, hdigit, hvalue⟩ := variableName_cases name <;>
    rw [hvalue]
  · exact ⟨'v', by decide, by decide⟩
  · exact startsSmall_append ⟨'v', by decide, by decide⟩ _
  · have hsmall := startsSmall_camel hc hdigit
    split_ifs
    · exact startsSmall_append hsmall "_"
    · exact hsmall

/-- What follows a name that is kept makes it free. -/
lemma isKept_variableName (name : String) : Sanitizer.script.isKept (variableName name) = false := by
  obtain ⟨-, hvalue⟩ | ⟨c, -, -, hvalue⟩ | ⟨c, -, -, hvalue⟩ := variableName_cases name <;>
    rw [hvalue]
  · decide +kernel
  · exact not_kept_of_underscore (by simp)
  · split_ifs with hkept
    · exact not_kept_of_underscore (by simp)
    · simpa using hkept

/-- In small letters, the name of a variable is neither reserved nor that of a global. -/
lemma notMem_kept_variableName (name : String) :
    lower (variableName name) ∉ reservedWords ++ Name.protectedNames := by
  have hfree := isKept_variableName name
  rw [Sanitizer.isKept, Bool.or_eq_false_iff] at hfree
  rw [List.mem_append, ← List.contains_iff_mem, ← List.contains_iff_mem]
  rintro (hreserved | hglobal)
  · exact Bool.false_ne_true (hfree.1.symm.trans hreserved)
  · exact Bool.false_ne_true (hfree.2.symm.trans hglobal)

lemma capitalForm_of_small (hc : isAsciiLower c = true) : capitalForm c = [asciiUpper c] :=
  of_lower (P := fun c => capitalForm c = [asciiUpper c]) (by decide) hc

lemma setter_inj (ha : StartsSmall a) (hb : StartsSmall b) : setter a = setter b ↔ a = b := by
  refine ⟨fun h => ?_, congrArg setter⟩
  obtain ⟨c, hc, hcsmall⟩ := ha
  obtain ⟨d, hd, hdsmall⟩ := hb
  obtain ⟨rest, hrest⟩ := List.head?_eq_some_iff.1 hc
  obtain ⟨more, hmore⟩ := List.head?_eq_some_iff.1 hd
  have hchars : asciiUpper c :: rest = asciiUpper d :: more := by
    have h := congrArg String.toList h
    simpa [setter, hrest, hmore, capitalForm_of_small hcsmall, capitalForm_of_small hdsmall] using h
  obtain ⟨hfirst, rfl⟩ := List.cons.inj hchars
  have hback {e : Char} (he : isAsciiLower e = true) : asciiLower (asciiUpper e) = e :=
    of_lower (P := fun e => asciiLower (asciiUpper e) = e) (by decide) he
  rw [← String.toList_inj, hrest, hmore, ← hback hcsmall, hfirst, hback hdsmall]

end ViewWriter.Name
