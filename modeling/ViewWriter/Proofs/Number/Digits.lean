import Mathlib.Tactic.Lemma
import Mathlib.Tactic.SplitIfs
import ViewWriter.Number.Reading
import ViewWriter.Proofs.Text.Pieces

/-! A run of decimal digits of any notation is read as its value unless it is too long, and a
number written out is read back. -/

namespace ViewWriter.Number

open ViewWriter.Text

/-- The value of a run of digits of any notation. -/
def valueOf (digits : List Char) : Nat := digitsValue (plainDigits digits)

section Character

lemma toNat_of_isAsciiDigit {c : Char} (h : isAsciiDigit c = true) :
    48 ≤ c.toNat ∧ c.toNat ≤ 57 := by
  simp only [isAsciiDigit, Bool.and_eq_true, decide_eq_true_eq, Char.le_def] at h
  exact ⟨UInt32.le_iff_toNat_le.1 h.1, UInt32.le_iff_toNat_le.1 h.2⟩

lemma decimalValue?_lt {c : Char} {n : Nat} (h : decimalValue? c = some n) : n < 10 := by
  unfold decimalValue? at h
  split_ifs at h with _ hd
  · obtain rfl := Option.some.inj h
    have hrange := toNat_of_isAsciiDigit hd
    omega
  · obtain ⟨z, hz, rfl⟩ := Option.map_eq_some_iff.1 h
    have hrange := List.find?_some hz
    simp only [Bool.and_eq_true, decide_eq_true_eq] at hrange
    omega

lemma isBlank_of_isDecimal {c : Char} (h : isDecimal c = true) : isBlank c = false := by
  unfold isDecimal decimalValue? at h
  split_ifs at h with ha hd
  · have hrange := toNat_of_isAsciiDigit hd
    simp only [isBlank, Bool.or_eq_false_iff, Bool.and_eq_false_iff, decide_eq_false_iff_not,
      beq_eq_false_iff_ne]
    omega
  · cases h
  · rw [Option.isSome_map] at h
    obtain ⟨z, hz⟩ := Option.isSome_iff_exists.1 h
    have hmem := List.mem_of_find?_eq_some hz
    have hrange := List.find?_some hz
    -- no decimal notation has white space among its digits
    have hzeros : ∀ z ∈ Table.zeros, 1632 ≤ z ∧ (z ≤ 5750 ∨ 5761 ≤ z) ∧ (z ≤ 8182 ∨ 12289 ≤ z) := by
      decide
    have hplace := hzeros z hmem
    simp only [Bool.and_eq_true, decide_eq_true_eq] at hrange
    simp only [isBlank, Bool.or_eq_false_iff, Bool.and_eq_false_iff, decide_eq_false_iff_not,
      beq_eq_false_iff_ne]
    omega

lemma containsFrom_between {changes : List ℕ} {inside : Bool} {m n : ℕ} (hmn : m ≤ n)
    (h : ∀ c ∈ changes, c ≤ m ∨ n < c) :
    CodeSet.containsFrom changes inside n = CodeSet.containsFrom changes inside m := by
  induction changes generalizing inside with
  | nil => rfl
  | cons c rest ih =>
    rw [List.forall_mem_cons] at h
    rw [CodeSet.containsFrom, CodeSet.containsFrom, ih h.2]
    rcases h.1 with hc | hc
    · rw [if_neg (by omega), if_neg (by omega)]
    · rw [if_pos hc, if_pos (by omega)]

lemma isWordChar_of_isDecimal {c : Char} (h : isDecimal c = true) : isWordChar c = true := by
  unfold isDecimal decimalValue? at h
  split_ifs at h with ha hd
  · simp [isWordChar, isAlphanumeric, ha, isAsciiAlphanumeric, hd]
  · cases h
  · rw [Option.isSome_map] at h
    obtain ⟨z, hz⟩ := Option.isSome_iff_exists.1 h
    have hmem := List.mem_of_find?_eq_some hz
    have hrange := List.find?_some hz
    have hzeros : Table.zeros.all (fun z => CodeSet.containsFrom Table.numeral.changes false z &&
        Table.numeral.changes.all fun c => c.ble z || (z + 10).ble c) = true := by
      decide +kernel
    obtain ⟨hzero, hbetween⟩ := Bool.and_eq_true_iff.1 (List.all_eq_true.1 hzeros z hmem)
    simp only [List.all_eq_true, Bool.or_eq_true, Nat.ble_eq] at hbetween
    simp only [Bool.and_eq_true, decide_eq_true_eq] at hrange
    have hnumeral : CodeSet.containsFrom Table.numeral.changes false c.toNat = true := by
      rw [containsFrom_between hrange.1, hzero]
      exact fun n hn => (hbetween n hn).imp_right fun hlt => by omega
    simp [isWordChar, isAlphanumeric, ha, CodeSet.contains, hnumeral]

lemma isAsciiDigit_asciiDigit {n : Nat} (h : n < 10) : isAsciiDigit (asciiDigit n) = true := by
  have hdigits : ∀ n < 10, isAsciiDigit (asciiDigit n) = true := by decide
  exact hdigits n h

lemma isAscii_of_isAsciiDigit {c : Char} (h : isAsciiDigit c = true) : isAscii c = true := by
  have := toNat_of_isAsciiDigit h
  simp only [isAscii, decide_eq_true_eq]
  omega

lemma decimalValue?_of_isAsciiDigit {c : Char} (h : isAsciiDigit c = true) :
    decimalValue? c = some (c.toNat - 48) := by
  simp [decimalValue?, isAscii_of_isAsciiDigit h, h]

lemma isDecimal_of_isAsciiDigit {c : Char} (h : isAsciiDigit c = true) : isDecimal c = true := by
  simp [isDecimal, decimalValue?_of_isAsciiDigit h]

end Character

section Reading

variable {digits : List Char}

lemma isAsciiDigit_of_plainDigits (h : ∀ c ∈ digits, isDecimal c) :
    ∀ c ∈ plainDigits digits, isAsciiDigit c := by
  intro c hc
  obtain ⟨d, hd, rfl⟩ := List.mem_map.1 hc
  obtain ⟨n, hn⟩ := Option.isSome_iff_exists.1 (h d hd)
  simp only [hn]
  exact isAsciiDigit_asciiDigit (decimalValue?_lt hn)

lemma plainDigits_eq_self (h : ∀ c ∈ digits, isAsciiDigit c) : plainDigits digits = digits := by
  refine (List.map_congr_left ?_).trans (List.map_id digits)
  intro c hc
  have hrange := toNat_of_isAsciiDigit (h c hc)
  rw [decimalValue?_of_isAsciiDigit (h c hc)]
  simp only [asciiDigit, id_eq]
  rw [show 48 + (c.toNat - 48) = c.toNat by omega, Char.ofNat_toNat]

lemma isNumberMargin_of_isDecimal {c : Char} (h : isDecimal c = true) :
    isNumberMargin c = false := by
  simp [isNumberMargin, isBlank_of_isDecimal h]

lemma withoutSeparators?_of_notMem {cs : List Char} (before : Option Char) (h : '_' ∉ cs) :
    withoutSeparators? before cs = some cs := by
  induction cs generalizing before with
  | nil => rfl
  | cons c rest ih =>
    rw [List.mem_cons, not_or] at h
    rw [withoutSeparators?, ih (some c) h.2]
    · rfl
    · exact fun e => h.1 e.symm

lemma underscore_notMem (h : ∀ c ∈ digits, isAsciiDigit c) : '_' ∉ digits :=
  fun hmem => absurd (h '_' hmem) (by decide)

lemma prepared?_eq {s : String} (hm : ∀ c ∈ s.toList, isNumberMargin c = false)
    (hs : '_' ∉ plainDigits s.toList) : prepared? s = some (splitSign (plainDigits s.toList)) := by
  rw [prepared?, trim_eq_self hm, withoutSeparators?_of_notMem none hs, Option.map_some]

lemma splitSign_digits (h : ∀ c ∈ digits, isAsciiDigit c) : splitSign digits = (false, digits) := by
  unfold splitSign
  split
  · exact absurd (h '-' List.mem_cons_self) (by decide)
  · exact absurd (h '+' List.mem_cons_self) (by decide)
  · rfl

/-- Digits of any notation are read as their value, unless there are too many. -/
lemma integer?_digits (h : ∀ c ∈ digits, isDecimal c) (hne : digits ≠ []) :
    integer? (String.ofList digits) =
      if maxDigits < digits.length then none else some (valueOf digits : Int) := by
  have hplain := isAsciiDigit_of_plainDigits h
  have hlength : (plainDigits digits).length = digits.length := List.length_map _
  have hne' : plainDigits digits ≠ [] := by simpa [plainDigits] using hne
  have hall : (plainDigits digits).all isAsciiDigit = true := List.all_eq_true.2 hplain
  have hread : prepared? (String.ofList digits) = some (false, plainDigits digits) := by
    rw [prepared?_eq, String.toList_ofList, splitSign_digits hplain]
    · rw [String.toList_ofList]
      exact fun c hc => isNumberMargin_of_isDecimal (h c hc)
    · rw [String.toList_ofList]
      exact underscore_notMem hplain
  simp only [integer?, hread, Option.bind_eq_bind, Option.bind_some, hlength]
  split_ifs
  · rfl
  · simp [natural?, hall, hne', Binary64.signed, valueOf]

lemma isAsciiDigit_of_toDigits {n : Nat} {c : Char} (h : c ∈ Nat.toDigits 10 n) :
    isAsciiDigit c = true := by
  have hdigit := Nat.isDigit_of_mem_toDigits (by decide) (by decide) h
  simpa [Char.isDigit, isAsciiDigit, Char.le_def] using hdigit

lemma isDecimal_of_toDigits {n : Nat} {c : Char} (h : c ∈ Nat.toDigits 10 n) :
    isDecimal c = true := isDecimal_of_isAsciiDigit (isAsciiDigit_of_toDigits h)

lemma valueOf_toDigits (n : Nat) : valueOf (Nat.toDigits 10 n) = n := by
  rw [valueOf, plainDigits_eq_self fun c hc => isAsciiDigit_of_toDigits hc]
  exact Nat.ofDigitChars_ten_toDigits

end Reading

section Point

variable {whole places : List Char}

lemma plainDigits_append (cs ds : List Char) :
    plainDigits (cs ++ ds) = plainDigits cs ++ plainDigits ds := List.map_append

lemma plainDigits_point (cs : List Char) : plainDigits ('.' :: cs) = '.' :: plainDigits cs := rfl

lemma unsigned?_point (negative : Bool) (hw : ∀ c ∈ whole, isAsciiDigit c) (hne : whole ≠ [])
    (hp : ∀ c ∈ places, isAsciiDigit c) :
    ∃ x, unsigned? negative (whole ++ '.' :: places) = some x := by
  have hstop : isAsciiDigit '.' = false := by decide
  simp only [unsigned?, takeWhile_stop hw hstop, dropWhile_stop hw hstop,
    List.takeWhile_eq_self_iff.2 hp, List.dropWhile_eq_nil_iff.2 hp]
  simp [hne, exponent?]

/-- Digits with a point after them are read as a number, with a minus sign or without. -/
lemma exists_real? {s : String} {sign : List Char}
    (hs : s.toList = sign ++ (whole ++ '.' :: places)) (hsign : sign = [] ∨ sign = ['-'])
    (hw : ∀ c ∈ whole, isDecimal c) (hne : whole ≠ [])
    (hp : ∀ c ∈ places, isDecimal c) : ∃ x, real? s = some x := by
  have hw' := isAsciiDigit_of_plainDigits hw
  have hp' := isAsciiDigit_of_plainDigits hp
  have hne' : plainDigits whole ≠ [] := by simpa [plainDigits] using hne
  have hmargin : ∀ c ∈ s.toList, isNumberMargin c = false := by
    rw [hs]
    intro c hc
    rw [List.mem_append, List.mem_append, List.mem_cons] at hc
    rcases hc with hc | hc | rfl | hc
    · rcases hsign with rfl | rfl
      · cases hc
      · obtain rfl := List.mem_singleton.1 hc
        decide
    · exact isNumberMargin_of_isDecimal (hw c hc)
    · decide
    · exact isNumberMargin_of_isDecimal (hp c hc)
  have hplain : plainDigits s.toList =
      sign ++ (plainDigits whole ++ '.' :: plainDigits places) := by
    rw [hs, plainDigits_append, plainDigits_append, plainDigits_point]
    rcases hsign with rfl | rfl <;> rfl
  have hunderscore : '_' ∉ plainDigits s.toList := by
    rw [hplain, List.mem_append, List.mem_append, List.mem_cons]
    rintro (hc | hc | hc | hc)
    · rcases hsign with rfl | rfl <;> simp at hc
    · exact underscore_notMem hw' hc
    · simp at hc
    · exact underscore_notMem hp' hc
  have hsplit : splitSign (plainDigits s.toList) =
      (sign == ['-'], plainDigits whole ++ '.' :: plainDigits places) := by
    rw [hplain]
    rcases hsign with rfl | rfl
    · obtain ⟨d, rest, hd⟩ := List.exists_cons_of_ne_nil hne'
      have hdigit : isAsciiDigit d = true := hw' d (hd ▸ List.mem_cons_self)
      rw [hd, List.nil_append, List.cons_append, splitSign]
      · rfl
      all_goals
        intro _ he
        rw [(List.cons.inj he).1] at hdigit
        exact absurd hdigit (by decide)
    · rfl
  obtain ⟨x, hx⟩ := unsigned?_point (sign == ['-']) hw' hne' hp'
  rw [real?, prepared?_eq hmargin hunderscore, hsplit]
  simp only [Option.bind_eq_bind, Option.bind_some, hx]
  split_ifs
  · exact ⟨_, rfl⟩
  · exact ⟨_, rfl⟩
  · exact ⟨_, rfl⟩

end Point

end ViewWriter.Number
