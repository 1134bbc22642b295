import ViewWriter.Proofs.Text.Spacing

/-! Script identifiers are words: they hold no white space and no punctuation. -/

namespace ViewWriter.Script

open ViewWriter.Text

lemma not_isAsciiAlphanumeric_of_blank {c : Char} (h : c.toNat ≤ 32) :
    isAsciiAlphanumeric c = false := by
  have hle : ∀ d : Char, d ≤ c → d.toNat ≤ c.toNat := fun d hd => UInt32.le_iff_toNat_le.1 hd
  have h0 := hle '0'
  have hA := hle 'A'
  have ha := hle 'a'
  have hvalues : '0'.toNat = 48 ∧ 'A'.toNat = 65 ∧ 'a'.toNat = 97 := ⟨rfl, rfl, rfl⟩
  simp only [isAsciiAlphanumeric, isAsciiLetter, isAsciiUpper, isAsciiLower, isAsciiDigit,
    Bool.or_eq_false_iff, Bool.and_eq_false_iff, decide_eq_false_iff_not]
  refine ⟨⟨.inl fun hc => ?_, .inl fun hc => ?_⟩, .inl fun hc => ?_⟩
  · have := hA hc
    omega
  · have := ha hc
    omega
  · have := h0 hc
    omega

lemma isAlphanumeric_of_blank {c : Char} (h : isBlank c = true) : isAlphanumeric c = false := by
  -- beyond ASCII, no blank is a letter or a numeral
  have hbeyond : ∀ n ∈ [133, 160, 5760, 8192, 8193, 8194, 8195, 8196, 8197, 8198, 8199, 8200, 8201,
      8202, 8232, 8233, 8239, 8287, 12288],
      CodeSet.containsFrom Table.letter.changes false n = false ∧
        CodeSet.containsFrom Table.numeral.changes false n = false := by
    decide +kernel
  simp only [isBlank, Bool.or_eq_true, Bool.and_eq_true, decide_eq_true_eq, beq_iff_eq] at h
  unfold isAlphanumeric
  split_ifs with hc
  · simp only [isAscii, decide_eq_true_eq] at hc
    exact not_isAsciiAlphanumeric_of_blank (by omega)
  · simp only [isAscii, decide_eq_true_eq] at hc
    have hmem : c.toNat ∈ [133, 160, 5760, 8192, 8193, 8194, 8195, 8196, 8197, 8198, 8199, 8200,
        8201, 8202, 8232, 8233, 8239, 8287, 12288] := by
      simp only [List.mem_cons, List.not_mem_nil, or_false]
      omega
    obtain ⟨hletter, hnumeral⟩ := hbeyond c.toNat hmem
    simp [CodeSet.contains, hletter, hnumeral]

lemma isIdentifierPart_of_blank {c : Char} (h : isBlank c = true) :
    isIdentifierPart c = false := by
  have hword : c ≠ '_' := by
    rintro rfl
    exact absurd h (by decide)
  have hdollar : c ≠ '$' := by
    rintro rfl
    exact absurd h (by decide)
  simp [isIdentifierPart, isWordChar, isAlphanumeric_of_blank h, hword, hdollar]

lemma isIdentifierPart_of_start {c : Char} (h : isIdentifierStart c = true) :
    isIdentifierPart c = true := by
  simp only [isIdentifierStart, Bool.or_eq_true, beq_iff_eq] at h
  rcases h with (h | rfl) | rfl
  · have hascii : isAscii c = true := by
      simp only [isAsciiLetter, isAsciiUpper, isAsciiLower, Bool.or_eq_true, Bool.and_eq_true,
        decide_eq_true_eq] at h
      have hle : ∀ d : Char, c ≤ d → c.toNat ≤ d.toNat := fun d hd => UInt32.le_iff_toNat_le.1 hd
      have hZ := hle 'Z'
      have hz := hle 'z'
      have hvalues : 'Z'.toNat = 90 ∧ 'z'.toNat = 122 := ⟨rfl, rfl⟩
      simp only [isAscii, decide_eq_true_eq]
      rcases h with h | h
      · have := hZ h.2
        omega
      · have := hz h.2
        omega
    simp [isIdentifierPart, isWordChar, isAlphanumeric, hascii, isAsciiAlphanumeric, h]
  · decide
  · decide

lemma parts_of_isIdentifier {cs : List Char} (h : isIdentifier cs = true) :
    cs ≠ [] ∧ ∀ c ∈ cs, isIdentifierPart c = true := by
  cases cs with
  | nil => cases h
  | cons c rest =>
    rw [isIdentifier, Bool.and_eq_true] at h
    refine ⟨List.cons_ne_nil c rest, ?_⟩
    intro d hd
    rcases List.mem_cons.1 hd with rfl | hd
    · exact isIdentifierPart_of_start h.1
    · exact List.all_eq_true.1 h.2 d hd

lemma isWord_of_isIdentifier {cs : List Char} (h : isIdentifier cs = true) : IsWord cs where
  ne_nil := (parts_of_isIdentifier h).1
  no_blank := by
    intro c hc
    refine Bool.eq_false_iff.2 fun hb => ?_
    have hpart := (parts_of_isIdentifier h).2 c hc
    simp [isIdentifierPart_of_blank hb] at hpart

lemma notMem_of_isIdentifier {cs : List Char} {c : Char} (h : isIdentifier cs = true)
    (hc : isIdentifierPart c = false) : c ∉ cs := by
  intro hmem
  have hpart := (parts_of_isIdentifier h).2 c hmem
  simp [hc] at hpart

end ViewWriter.Script
