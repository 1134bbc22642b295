import Mathlib.Data.List.TakeWhile
import Mathlib.Tactic.Lemma
import Mathlib.Tactic.SplitIfs
import ViewWriter.Number.Shortest

/-! Every floating-point number has a text. The shortest digits of a number that is not zero are not
all zeros. -/

namespace ViewWriter

section Digits

lemma digitChar_ne_zero {n : ℕ} (h : n < 10) (hn : n ≠ 0) : n.digitChar ≠ '0' := by
  have hdigits : ∀ n < 10, n ≠ 0 → n.digitChar ≠ '0' := by decide
  exact hdigits n h hn

lemma exists_digit_ne_zero {n : ℕ} (hn : n ≠ 0) : ∃ c ∈ Nat.toDigits 10 n, c ≠ '0' := by
  induction n using Nat.strongRecOn with
  | _ n ih =>
    by_cases hsmall : n < 10
    · rw [Nat.toDigits_of_lt_base hsmall]
      exact ⟨_, List.mem_singleton_self _, digitChar_ne_zero hsmall hn⟩
    · rw [Nat.toDigits_of_base_le (by decide) (Nat.not_lt.1 hsmall)]
      obtain ⟨c, hc, hne⟩ := ih (n / 10) (by omega) (by omega)
      exact ⟨c, List.mem_append_left _ hc, hne⟩

lemma pow_le_of_toDigits {n : ℕ} (hn : n ≠ 0) : powerOfTen ((Nat.toDigits 10 n).length - 1) ≤ n := by
  by_contra hlt
  rw [Nat.not_le] at hlt
  by_cases hone : (Nat.toDigits 10 n).length - 1 = 0
  · have hlt : n < 1 := by rwa [hone] at hlt
    omega
  · have hle := (Nat.length_toDigits_le_iff (b := 10) (by decide) (Nat.pos_of_ne_zero hone)).2 hlt
    omega

end Digits

namespace Binary64

variable {units : ℕ}

lemma powerOfTwo_pos (n : ℕ) : 0 < powerOfTwo n := Nat.pow_pos (by decide)

lemma powerOfTen_pos (n : ℕ) : 0 < powerOfTen n := Nat.pow_pos (by decide)

lemma unit_le : unit ≤ powerOfTen 400 := by decide +kernel

lemma low_pos (h : units ≠ 0) : 0 < (neighbourhood units).low := by
  have hstep : powerOfTwo (bitLength units - 53) ≤ units := by
    have hlog : bitLength units - 53 ≤ units.log2 := by
      rw [bitLength, if_neg h]
      omega
    exact (Nat.pow_le_pow_right (by decide) hlog).trans (Nat.log2_self_le h)
  simp only [neighbourhood]
  split_ifs <;> omega

lemma scale_pos {n : ℕ} (h : 0 < n) (e : ℤ) : 0 < Decimal.scale n e := by
  cases e with
  | ofNat e => exact Nat.mul_pos h (powerOfTen_pos e)
  | negSucc e => exact h

lemma not_contains_zero (h : units ≠ 0) (e : ℤ) : (neighbourhood units).contains ⟨0, e⟩ = false := by
  have hzero : Decimal.scale 0 e = 0 := by
    cases e with
    | ofNat e => exact Nat.zero_mul _
    | negSucc e => rfl
  have hlow : Decimal.compareQuotient ⟨0, e⟩ (neighbourhood units).low (4 * unit) = .lt := by
    rw [Decimal.compareQuotient, hzero, Nat.zero_mul, Nat.compare_eq_lt]
    exact scale_pos (low_pos h) _
  simp [Neighbourhood.contains, hlow]

lemma nearer?_ne_zero {c n : ℕ} {below above : Bool} {half : Ordering}
    (h : below = true → c ≠ 0) (hn : nearer? c below above half = some n) : n ≠ 0 := by
  unfold nearer? at hn
  split at hn
  · cases hn
  · obtain rfl := Option.some.inj hn
    exact h rfl
  · obtain rfl := Option.some.inj hn
    exact Nat.succ_ne_zero c
  · have hc := h rfl
    split at hn
    · obtain rfl := Option.some.inj hn
      exact Nat.succ_ne_zero c
    · obtain rfl := Option.some.inj hn
      exact hc
    · obtain rfl := Option.some.inj hn
      split_ifs
      · exact hc
      · exact Nat.succ_ne_zero c

lemma digits_onGrid? (h : units ≠ 0) {exponent : ℤ} {d : Decimal}
    (hd : onGrid? units exponent = some d) : d.digits ≠ 0 := by
  obtain ⟨n, hn, rfl⟩ := Option.map_eq_some_iff.1 hd
  refine nearer?_ne_zero (fun hbelow hzero => ?_) hn
  rw [hzero, not_contains_zero h] at hbelow
  cases hbelow

lemma powerOfTen_add (i j : ℕ) : powerOfTen (i + j) = powerOfTen i * powerOfTen j :=
  Nat.pow_add 10 i j

lemma gridBelow_ne_zero {k : ℕ} {e : ℤ} (h : powerOfTen k * unit ≤ units * powerOfTen 400)
    (he : e = k - 416) : gridBelow units e ≠ 0 := by
  have hunit : 0 < unit := powerOfTwo_pos 1074
  cases e with
  | ofNat e =>
    rw [gridBelow]
    generalize unit = m at hunit h ⊢
    rw [Int.ofNat_eq_natCast] at he
    have hsum : k = e + 16 + 400 := by omega
    rw [hsum, powerOfTen_add, powerOfTen_add, Nat.mul_right_comm] at h
    have hle := Nat.le_of_mul_le_mul_right h (powerOfTen_pos 400)
    refine Nat.pos_iff_ne_zero.1 (Nat.div_pos ?_ (Nat.mul_pos hunit (powerOfTen_pos e)))
    rw [Nat.mul_comm m]
    exact (Nat.mul_le_mul_right m (Nat.le_mul_of_pos_right _ (powerOfTen_pos 16))).trans hle
  | negSucc e =>
    rw [gridBelow]
    generalize unit = m at hunit h ⊢
    rw [Int.negSucc_eq] at he
    have hsum : 400 + 16 = e + 1 + k := by omega
    refine Nat.pos_iff_ne_zero.1 (Nat.div_pos ?_ hunit)
    refine Nat.le_of_mul_le_mul_left ?_ (powerOfTen_pos k)
    calc powerOfTen k * m ≤ units * powerOfTen 400 := h
      _ ≤ units * powerOfTen (400 + 16) := by
        rw [powerOfTen_add]
        exact Nat.mul_le_mul_left _ (Nat.le_mul_of_pos_right _ (powerOfTen_pos 16))
      _ = powerOfTen k * (units * powerOfTen (e + 1)) := by
        rw [hsum, powerOfTen_add, Nat.mul_comm (powerOfTen k), Nat.mul_assoc]

lemma gridBelow_magnitude (h : units ≠ 0) : gridBelow units (magnitude units - 17) ≠ 0 := by
  have hpos : units * powerOfTen 400 / unit ≠ 0 := by
    refine Nat.pos_iff_ne_zero.1 (Nat.div_pos ?_ (powerOfTwo_pos 1074))
    exact unit_le.trans (Nat.le_mul_of_pos_left _ (Nat.pos_of_ne_zero h))
  have hdigits : powerOfTen _ * unit ≤ _ := Nat.mul_le_of_le_div _ _ _ (pow_le_of_toDigits hpos)
  have hlength : 0 < (Nat.toDigits 10 (units * powerOfTen 400 / unit)).length :=
    Nat.length_toDigits_pos
  refine gridBelow_ne_zero hdigits ?_
  rw [magnitude]
  omega

lemma digits_shortest (h : units ≠ 0) : (shortest units).digits ≠ 0 := by
  rw [shortest]
  cases hfind : (List.range 17).findSome? fun n =>
      onGrid? units (magnitude units - (Int.ofNat n + 1)) with
  | none => exact gridBelow_magnitude h
  | some d =>
    obtain ⟨n, -, hn⟩ := List.exists_of_findSome?_eq_some hfind
    exact digits_onGrid? h hn

end Binary64

namespace NumberFormat

lemma digitsText_ne_nil (f : NumberFormat) {digits : List Char} (h : digits ≠ []) (e : ℤ) :
    f.digitsText digits e ≠ [] := by
  unfold digitsText
  split_ifs
  · split
    · exact absurd rfl h
    · exact List.cons_ne_nil _ _
    · exact List.cons_ne_nil _ _
  · split
    · exact List.cons_ne_nil _ _
    · simp

lemma decimalText_ne_nil (f : NumberFormat) {d : Decimal} (h : d.digits ≠ 0) :
    f.decimalText d ≠ [] := by
  obtain ⟨c, hc, hne⟩ := exists_digit_ne_zero h
  refine digitsText_ne_nil f (fun hnil => ?_) _
  rw [List.reverse_eq_nil_iff, List.dropWhile_eq_nil_iff] at hnil
  exact hne (beq_iff_eq.1 (hnil c (List.mem_reverse.2 hc)))

lemma write_ne_empty {f : NumberFormat} (hnan : f.nan ≠ "") (hinf : f.infinity ≠ "")
    (x : Binary64) : f.write x ≠ "" := by
  unfold write
  split
  · exact hnan
  · simp [hinf]
  · simp
  · rename_i u hu
    simp [decimalText_ne_nil f (Binary64.digits_shortest hu)]

end NumberFormat

end ViewWriter
