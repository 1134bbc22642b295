import ViewWriter.Name.Identifier
import ViewWriter.Proofs.Json.OneLine

/-! Names in the form of components and names with hyphens between their words. Some names are their own
component form. Names with hyphens have letters, digits and hyphens only, so that a style class stands on
one line. -/

namespace ViewWriter.Name

open ViewWriter.Text

section Pascal

/-- Letters and digits of which every capital after the first character begins a word. -/
def isSpelledOut : List Char → Bool
  | [] => true
  | [c] => isAsciiAlphanumeric c
  | c :: d :: more =>
    isAsciiAlphanumeric c && (!isAsciiUpper d || isBoundary c d more.head?) &&
      isSpelledOut (d :: more)

/-- A capital and what is spelled out after it. -/
def isPascal (name : String) : Bool := name.toList.head?.any isAsciiUpper && isSpelledOut name.toList

variable {c : Char} {cs rest : List Char}

lemma asciiLower_of_not_upper (h : isAsciiUpper c = false) : asciiLower c = c := by
  rw [asciiLower, h]
  rfl

section Codes

variable {P : Char → Prop}

lemma of_codes {first count : Nat} (hP : ∀ n ∈ List.range' first count, P (Char.ofNat n))
    (h : first ≤ c.toNat ∧ c.toNat < first + count) : P c := by
  have hc := hP c.toNat (List.mem_range'_1.2 h)
  rwa [Char.ofNat_toNat] at hc

lemma of_upper (hP : ∀ n ∈ List.range' 65 26, P (Char.ofNat n)) (h : isAsciiUpper c = true) :
    P c := by
  refine of_codes hP ?_
  simp only [isAsciiUpper, Bool.and_eq_true, decide_eq_true_eq, Char.le_def,
    UInt32.le_iff_toNat_le] at h
  exact ⟨h.1, Nat.lt_succ_of_le h.2⟩

lemma of_lower (hP : ∀ n ∈ List.range' 97 26, P (Char.ofNat n)) (h : isAsciiLower c = true) :
    P c := by
  refine of_codes hP ?_
  simp only [isAsciiLower, Bool.and_eq_true, decide_eq_true_eq, Char.le_def,
    UInt32.le_iff_toNat_le] at h
  exact ⟨h.1, Nat.lt_succ_of_le h.2⟩

lemma of_digit (hP : ∀ n ∈ List.range' 48 10, P (Char.ofNat n)) (h : isAsciiDigit c = true) :
    P c := by
  refine of_codes hP ?_
  simp only [isAsciiDigit, Bool.and_eq_true, decide_eq_true_eq, Char.le_def,
    UInt32.le_iff_toNat_le] at h
  exact ⟨h.1, Nat.lt_succ_of_le h.2⟩

lemma of_alphanumeric
    (hP : ∀ n ∈ List.range' 65 26 ++ List.range' 97 26 ++ List.range' 48 10, P (Char.ofNat n))
    (h : isAsciiAlphanumeric c = true) : P c := by
  simp only [List.forall_mem_append] at hP
  simp only [isAsciiAlphanumeric, isAsciiLetter, Bool.or_eq_true] at h
  rcases h with (h | h) | h
  · exact of_upper hP.1.1 h
  · exact of_lower hP.1.2 h
  · exact of_digit hP.2 h

end Codes

lemma asciiUpper_asciiLower (h : isAsciiUpper c = true) : asciiUpper (asciiLower c) = c :=
  of_upper (P := fun c => asciiUpper (asciiLower c) = c) (by decide) h

lemma alphanumeric_of_spelledOut (h : isSpelledOut cs = true) :
    ∀ c ∈ cs, isAsciiAlphanumeric c := by
  fun_induction isSpelledOut cs with
  | case1 => simp
  | case2 c => simpa using h
  | case3 c d more ih =>
    simp only [Bool.and_eq_true] at h
    exact List.forall_mem_cons.2 ⟨h.1.1, ih h.2⟩

lemma asciiLower_eq_self_iff : asciiLower c = c ↔ isAsciiUpper c = false := by
  constructor
  · refine fun h => Bool.eq_false_iff.2 fun hupper => ?_
    exact of_upper (P := fun c => asciiLower c ≠ c) (by decide) hupper h
  · exact asciiLower_of_not_upper

/-- The words of letters and digits. With their capitals put back they are the same letters and digits
if and only if these are spelled out. -/
lemma wordChars_alphanumeric (h : ∀ d ∈ c :: rest, isAsciiAlphanumeric d) :
    ∃ word words, wordChars (c :: rest) = (asciiLower c :: word) :: words ∧
      (word ++ words.flatMap capitalizeChars = rest ↔ isSpelledOut (c :: rest) = true) := by
  induction rest generalizing c with
  | nil =>
    have hc := h c List.mem_cons_self
    exact ⟨[], [], by simp [wordChars, hc], by simp [isSpelledOut, hc]⟩
  | cons d more ih =>
    have hc := h c List.mem_cons_self
    have hd := h d (List.mem_cons_of_mem _ List.mem_cons_self)
    obtain ⟨word, words, hwords, hrest⟩ := ih fun e he => h e (List.mem_cons_of_mem _ he)
    rw [wordChars, isSpelledOut, Bool.and_eq_true, Bool.and_eq_true, ← hrest]
    simp only [hc, hd, hwords, Bool.not_true, Bool.false_or, Bool.false_eq_true, if_false, true_and]
    by_cases hboundary : isBoundary c d more.head? = true
    · have hupper : isAsciiUpper d = true := by
        rw [isBoundary, Bool.and_eq_true] at hboundary
        exact hboundary.1
      refine ⟨[], (asciiLower d :: word) :: words, by rw [if_pos hboundary], ?_⟩
      simp [hboundary, capitalizeChars, asciiUpper_asciiLower hupper]
    · refine ⟨asciiLower d :: word, words, by rw [if_neg hboundary], ?_⟩
      simp [hboundary, asciiLower_eq_self_iff]

lemma exists_wordChars (h : isSpelledOut (c :: rest) = true) :
    ∃ word words, wordChars (c :: rest) = (asciiLower c :: word) :: words ∧
      word ++ words.flatMap capitalizeChars = rest := by
  obtain ⟨word, words, hwords, hrest⟩ := wordChars_alphanumeric (alphanumeric_of_spelledOut h)
  exact ⟨word, words, hwords, hrest.2 h⟩

lemma component_of_pascal {name : String} (h : isPascal name = true) (default : String) :
    component name default = name := by
  rw [isPascal] at h
  rw [component]
  cases hname : name.toList with
  | nil => simp [hname] at h
  | cons c rest =>
    simp only [hname, List.head?_cons, Option.any_some, Bool.and_eq_true] at h
    obtain ⟨word, words, hwords, hrest⟩ := exists_wordChars h.2
    have hchars : pascalChars (c :: rest) = c :: rest := by
      rw [pascalChars, hwords, List.flatMap_cons, capitalizeChars, asciiUpper_asciiLower h.1,
        List.cons_append, hrest]
    have hdigit : isAsciiDigit c = false :=
      of_upper (P := fun c => isAsciiDigit c = false) (by decide) h.1
    simp only [hchars, hdigit, Bool.false_eq_true, if_false]
    rw [← hname, String.ofList_toList]

lemma isUppercase_of_pascal {name : String} (h : isPascal name = true) :
    name.toList.head?.any isUppercase = true := by
  rw [isPascal, Bool.and_eq_true, Option.any_eq_true] at h
  obtain ⟨⟨c, hc, hupper⟩, -⟩ := h
  rw [Option.any_eq_true]
  exact ⟨c, hc, of_upper (P := fun c => isUppercase c = true) (by decide) hupper⟩

lemma notMem_of_pascal {name : String} (h : isPascal name = true)
    (hc : isAsciiAlphanumeric c = false) : c ∉ name.toList := by
  rw [isPascal, Bool.and_eq_true] at h
  intro hmem
  simp [alphanumeric_of_spelledOut h.2 c hmem] at hc

end Pascal

section Kebab

variable {c : Char} {cs word : List Char}

lemma exists_of_mem_wordChars (h : word ∈ wordChars cs) (hc : c ∈ word) :
    ∃ d ∈ cs, isAsciiAlphanumeric d ∧ c = asciiLower d := by
  induction cs generalizing word with
  | nil => cases h
  | cons a rest ih =>
    have hlater {w : List Char} (hw : w ∈ wordChars rest) (hcw : c ∈ w) :
        ∃ d ∈ a :: rest, isAsciiAlphanumeric d ∧ c = asciiLower d := by
      obtain ⟨d, hd, hdc⟩ := ih hw hcw
      exact ⟨d, List.mem_cons_of_mem _ hd, hdc⟩
    rw [wordChars.eq_def] at h
    simp only at h
    split_ifs at h with ha
    · exact hlater h hc
    · have hfirst (hca : c = asciiLower a) :
          ∃ d ∈ a :: rest, isAsciiAlphanumeric d ∧ c = asciiLower d :=
        ⟨a, List.mem_cons_self, by simpa using ha, hca⟩
      split at h
      · obtain rfl := List.mem_singleton.1 h
        exact hfirst (List.mem_singleton.1 hc)
      · split_ifs at h
        · rcases List.mem_cons.1 h with rfl | h
          · exact hfirst (List.mem_singleton.1 hc)
          · exact hlater h hc
        · split at h
          · obtain rfl := List.mem_singleton.1 h
            exact hfirst (List.mem_singleton.1 hc)
          · rename_i hwords
            rcases List.mem_cons.1 h with rfl | h
            · rcases List.mem_cons.1 hc with hc | hc
              · exact hfirst hc
              · exact hlater (hwords ▸ List.mem_cons_self) hc
            · exact hlater (hwords ▸ List.mem_cons_of_mem _ h) hc

lemma asciiLower_ne_break (h : isAsciiAlphanumeric c = true) : asciiLower c ≠ '\n' := by
  cases hupper : isAsciiUpper c with
  | true => exact of_upper (P := fun c => asciiLower c ≠ '\n') (by decide) hupper
  | false =>
    rw [asciiLower_of_not_upper hupper]
    rintro rfl
    exact absurd h (by decide)

lemma oneLine_kebab (name : String) : OneLine (kebab name) := by
  rw [OneLine, kebab, String.toList_ofList, kebabChars]
  intro h
  rcases mem_joinWith h with h | ⟨word, hword, h⟩
  · exact absurd h (by decide)
  · obtain ⟨d, -, hd, hbreak⟩ := exists_of_mem_wordChars hword h
    exact asciiLower_ne_break hd hbreak.symm

lemma oneLine_orDefault {s default : String} (hs : OneLine s) (hdefault : OneLine default) :
    OneLine (orDefault s default) := by
  rw [orDefault]
  split_ifs
  · exact hdefault
  · exact hs

section Style

variable {prefixName : Option String}

lemma oneLine_styleClass (hnamespace : ∀ p, prefixName = some p → OneLine p) (type id : String) :
    OneLine (styleClass prefixName type id) := by
  have hown : ∀ s ∈ [orDefault (kebab type) "node", orDefault (kebab id) "x"], OneLine s := by
    simp only [List.forall_mem_cons, List.not_mem_nil, false_implies, implies_true, and_true]
    exact ⟨oneLine_orDefault (oneLine_kebab type) (by decide),
      oneLine_orDefault (oneLine_kebab id) (by decide)⟩
  cases prefixName with
  | none => exact .join (by decide) hown
  | some p => exact .join (by decide) (List.forall_mem_cons.2 ⟨hnamespace p rfl, hown⟩)

lemma styleClass_ne_empty (prefixName : Option String) (type id : String) :
    styleClass prefixName type id ≠ "" := by
  -- two parts at least, and so a hyphen between them
  have hjoin (s t : String) (rest : List String) : join "-" (s :: t :: rest) ≠ "" := by
    intro h
    have hchars := congrArg String.toList h
    rw [join, String.toList_ofList, List.map_cons, List.map_cons, joinWith_eq] at hchars
    simp at hchars
  cases prefixName with
  | none => exact hjoin _ _ _
  | some p => exact hjoin _ _ _

end Style

end Kebab

end ViewWriter.Name
