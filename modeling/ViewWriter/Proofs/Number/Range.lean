import Mathlib.Algebra.Order.Ring.Nat
import ViewWriter.Number.Basic
import ViewWriter.Proofs.Number.Shortest

/-! The range of floating-point numbers: which integers have a nearest one, and what is kept within
zero and one. -/

namespace ViewWriter.Binary64

/-- Half a step above the largest finite number. From here on integers are out of range. -/
def limit : Nat := powerOfTwo 1024 - powerOfTwo 970

section Rounding

variable {num den k n : Nat}

lemma powerOfTwo_add (m n : Nat) : powerOfTwo (m + n) = 2 ^ m * powerOfTwo n := Nat.pow_add 2 m n

lemma powerOfTwo_mono {m n : Nat} (h : m ≤ n) : powerOfTwo m ≤ powerOfTwo n :=
  Nat.pow_le_pow_right (by decide) h

lemma powerOfTwo_lt {m n : Nat} (h : m < n) : powerOfTwo m < powerOfTwo n :=
  Nat.pow_lt_pow_right Nat.one_lt_two h

lemma roundDiv_bounds (num den : Nat) : num / den ≤ roundDiv num den ∧ roundDiv num den ≤ num / den + 1 := by
  simp only [roundDiv]
  split_ifs <;> omega

lemma roundDiv_le_iff (hden : 0 < den) (hk : k % 2 = 1) :
    roundDiv num den ≤ k ↔ 2 * num < (2 * k + 1) * den := by
  have hsum := Nat.div_add_mod num den
  have hrest := Nat.mod_lt num hden
  have hbounds := roundDiv_bounds num den
  rcases Nat.lt_trichotomy (num / den) k with hless | heq | hmore
  · have hle : den * (num / den + 1) ≤ den * k := Nat.mul_le_mul_left den hless
    refine iff_of_true (by omega) ?_
    calc 2 * num < 2 * (den * (num / den + 1)) := by rw [Nat.mul_add]; omega
      _ ≤ 2 * (den * k) := Nat.mul_le_mul_left 2 hle
      _ ≤ (2 * k + 1) * den := by rw [Nat.add_mul, Nat.mul_assoc, Nat.mul_comm den k]; omega
  · -- a tie goes up, because the number below is odd
    have hodd : ¬ num / den % 2 = 0 := by omega
    have hhalf : (2 * k + 1) * den = 2 * (den * (num / den)) + den := by
      rw [heq, Nat.add_mul, Nat.mul_assoc, Nat.mul_comm den k, Nat.one_mul]
    rw [hhalf]
    simp only [roundDiv, if_neg hodd]
    split_ifs <;> omega
  · have hle : den * (k + 1) ≤ den * (num / den) := Nat.mul_le_mul_left den hmore
    refine iff_of_false (by omega) ?_
    have hover : (2 * k + 1) * den ≤ 2 * (den * (k + 1)) := by
      rw [Nat.mul_add, Nat.add_mul, Nat.mul_assoc, Nat.mul_comm den k]
      omega
    omega

lemma lt_power_bitLength (n : Nat) : n < powerOfTwo (bitLength n) := by
  rw [bitLength]
  split_ifs with hn
  · rw [hn]
    decide
  · exact Nat.lt_log2_self

lemma power_le_of_bitLength (h : k < bitLength n) : powerOfTwo k ≤ n := by
  rw [bitLength] at h
  split_ifs at h with hn
  · omega
  · exact (powerOfTwo_mono (Nat.lt_succ_iff.1 h)).trans (Nat.log2_self_le hn)

end Rounding

section Overflow

variable {n : Nat} {i : Int}

/-- What rounds to less than a power of two. The numbers that have as many bits as those below the power
decide: the largest of them round up to it. -/
lemma rounded_lt_iff (e n : Nat) :
    roundDiv n (spacing n 1) * spacing n 1 < 2 ^ 54 * powerOfTwo e ↔
      n < (2 ^ 54 - 1) * powerOfTwo e := by
  have hstep : spacing n 1 = powerOfTwo (bitLength n - 53) := by rw [spacing, Nat.div_one]
  have hbounds := roundDiv_bounds n (spacing n 1)
  have hpos : 0 < spacing n 1 := powerOfTwo_pos _
  have hhalf : 0 < powerOfTwo e := powerOfTwo_pos _
  rcases Nat.lt_trichotomy (bitLength n) (e + 54) with hless | heq | hmore
  · have hle : spacing n 1 ≤ powerOfTwo e := hstep ▸ powerOfTwo_mono (by omega)
    have hn : n < 2 ^ 53 * spacing n 1 := by
      refine (lt_power_bitLength n).trans_le ?_
      rw [hstep, ← powerOfTwo_add]
      exact powerOfTwo_mono (by omega)
    have hquotient : n / spacing n 1 < 2 ^ 53 := (Nat.div_lt_iff_lt_mul hpos).2 hn
    have hrounded : roundDiv n (spacing n 1) * spacing n 1 ≤ 2 ^ 53 * powerOfTwo e :=
      Nat.mul_le_mul (by omega) hle
    exact iff_of_true (by omega) (by omega)
  · have hdouble : spacing n 1 = 2 * powerOfTwo e := by
      have hbits : bitLength n - 53 = 1 + e := by omega
      rw [hstep, hbits, powerOfTwo_add, Nat.pow_one]
    have hmost : 2 ^ 54 * powerOfTwo e = 2 ^ 53 * spacing n 1 := by omega
    have hround : roundDiv n (spacing n 1) ≤ 2 ^ 53 - 1 ↔ _ := roundDiv_le_iff hpos (by decide)
    rw [hmost, Nat.mul_lt_mul_right hpos, Nat.lt_iff_le_pred (by decide), hround, hdouble]
    omega
  · have hle : 2 ^ 2 * powerOfTwo e ≤ spacing n 1 := by
      rw [hstep, ← powerOfTwo_add]
      exact powerOfTwo_mono (by omega)
    have hn : 2 ^ 52 * spacing n 1 ≤ n := by
      rw [hstep, ← powerOfTwo_add]
      exact power_le_of_bitLength (by omega)
    have hquotient : 2 ^ 52 ≤ n / spacing n 1 := (Nat.le_div_iff_mul_le hpos).2 hn
    have hrounded : 2 ^ 52 * spacing n 1 ≤ roundDiv n (spacing n 1) * spacing n 1 :=
      Nat.mul_le_mul_right _ (by omega)
    exact iff_of_false (by omega) (by omega)

lemma limit_times (e u : Nat) :
    (powerOfTwo (54 + e) - powerOfTwo e) * powerOfTwo u = (2 ^ 54 - 1) * powerOfTwo (e + u) := by
  have hproduct : powerOfTwo (e + u) = powerOfTwo e * powerOfTwo u := Nat.pow_add 2 e u
  rw [powerOfTwo_add, hproduct, ← Nat.mul_assoc, Nat.sub_mul, Nat.sub_mul, Nat.sub_mul, Nat.one_mul]

lemma rounded_lt_overflow_iff (n : Nat) :
    roundDiv (n * unit) (spacing (n * unit) 1) * spacing (n * unit) 1 < overflow ↔ n < limit := by
  have hunit : 0 < unit := powerOfTwo_pos 1074
  have hover : overflow = 2 ^ 54 * powerOfTwo (970 + 1074) := by
    rw [overflow, ← powerOfTwo_add]
  have hlimit : limit * unit = (2 ^ 54 - 1) * powerOfTwo (970 + 1074) := by
    have hbits : 1024 = 54 + 970 := by decide
    rw [limit, unit, hbits, limit_times]
  rw [hover, rounded_lt_iff, ← hlimit, Nat.mul_lt_mul_right hunit]

lemma ofQuotient_cases (negative : Bool) {num den units : Nat}
    (h : roundDiv (num * unit) (den * spacing (num * unit) den) * spacing (num * unit) den = units) :
    units < overflow ∧ ofQuotient negative num den = .finite negative units ∨
      ¬ units < overflow ∧ ofQuotient negative num den = .infinite negative := by
  unfold ofQuotient
  generalize overflow = top
  subst h
  dsimp only
  split
  · rename_i hsmall
    exact .inl ⟨hsmall, rfl⟩
  · rename_i hlarge
    exact .inr ⟨hlarge, rfl⟩

def finite? : Binary64 → Option Binary64
  | .finite negative units => some (.finite negative units)
  | _ => none

lemma ofInt?_eq (i : Int) : ofInt? i = (ofQuotient (i < 0) i.natAbs 1).finite? := by
  -- unfolded as a whole, because for an integer its quotient would be evaluated
  have hwhole : ofInt? = fun i : Int => (ofQuotient (i < 0) i.natAbs 1).finite? := by
    delta ofInt?
    funext i
    generalize ofQuotient (i < 0) i.natAbs 1 = x
    cases x <;> rfl
  exact congrFun hwhole i

/-- An integer has a nearest number, unless it is at least half a step above the largest one. -/
lemma ofInt?_eq_none_iff : ofInt? i = none ↔ limit ≤ i.natAbs := by
  have hrange := rounded_lt_overflow_iff i.natAbs
  obtain ⟨units, hunits⟩ : ∃ units, roundDiv (i.natAbs * unit) (1 * spacing (i.natAbs * unit) 1) *
      spacing (i.natAbs * unit) 1 = units := ⟨_, rfl⟩
  have hcases := ofQuotient_cases (i < 0) hunits
  rw [Nat.one_mul] at hunits
  rw [hunits] at hrange
  rw [ofInt?_eq]
  rcases hcases with ⟨hsmall, hfinite⟩ | ⟨hlarge, hinfinite⟩
  · rw [hfinite]
    exact iff_of_false (by rintro ⟨⟩) (Nat.not_le_of_lt (hrange.1 hsmall))
  · rw [hinfinite]
    exact iff_of_true rfl (Nat.le_of_not_lt fun h => hlarge (hrange.2 h))

lemma ofQuotient_ne_nan (negative : Bool) (num den : Nat) : ofQuotient negative num den ≠ .nan := by
  obtain ⟨-, h⟩ | ⟨-, h⟩ := @ofQuotient_cases negative num den _ rfl
  all_goals
    rw [h]
    exact nofun

lemma roundPlaces_ne_nan {x : Binary64} (places : Nat) (h : x ≠ .nan) : x.roundPlaces places ≠ .nan := by
  cases x with
  | nan => exact absurd rfl h
  | infinite negative => exact nofun
  | finite negative units =>
    rw [roundPlaces]
    exact ofQuotient_ne_nan negative _ _

end Overflow

section Clamp

variable {x y : Binary64} {a b : ℤ}

/-- A number within zero and one. -/
def IsShare (x : Binary64) : Prop := ∃ a, x.rank? = some a ∧ 0 ≤ a ∧ a ≤ unit

lemma unit_lt_overflow : unit < overflow := powerOfTwo_lt (Nat.lt_add_of_pos_left (Nat.succ_pos 1023))

lemma lt_eq (ha : x.rank? = some a) (hb : y.rank? = some b) : x.lt y = decide (a < b) := by
  rw [lt, ha, hb]

lemma rank_zero : zero.rank? = some 0 := rfl

lemma rank_one : one.rank? = some (unit : ℤ) := rfl

lemma exists_rank (h : x ≠ .nan) : ∃ a, x.rank? = some a := by
  cases x with
  | nan => exact absurd rfl h
  | infinite negative => exact ⟨_, rfl⟩
  | finite negative units => exact ⟨_, rfl⟩

lemma clampUnit_eq (h : x.rank? = some a) :
    x.clampUnit = if a < 0 then zero else if (unit : ℤ) < a then one else x := by
  have hx : x.clampUnit =
      if one.lt (if x.lt zero then zero else x) then one else if x.lt zero then zero else x := rfl
  have hone : one.lt zero = false :=
    (lt_eq rank_one rank_zero).trans (decide_eq_false (Int.natCast_nonneg unit).not_gt)
  rw [hx, lt_eq h rank_zero]
  by_cases hbelow : a < 0
  · simp only [hbelow, decide_true, if_true, hone, Bool.false_eq_true, if_false]
  · simp only [hbelow, decide_false, Bool.false_eq_true, if_false, lt_eq rank_one h,
      decide_eq_true_eq]

lemma isShare_clampUnit (h : x ≠ .nan) : x.clampUnit.IsShare := by
  obtain ⟨a, ha⟩ := exists_rank h
  rw [clampUnit_eq ha]
  split_ifs with hbelow habove
  · exact ⟨0, rank_zero, le_rfl, Int.natCast_nonneg unit⟩
  · exact ⟨unit, rank_one, Int.natCast_nonneg unit, le_rfl⟩
  · exact ⟨a, ha, not_lt.1 hbelow, not_lt.1 habove⟩

lemma IsShare.exists_finite (h : x.IsShare) : ∃ negative units, x = .finite negative units := by
  obtain ⟨a, ha, hzero, hone⟩ := h
  have hover := unit_lt_overflow
  cases x with
  | nan => cases ha
  | infinite negative =>
    obtain rfl : signed negative (2 * overflow) = a := Option.some.inj ha
    cases negative with
    | false =>
      rw [signed, if_neg Bool.false_ne_true] at hone
      omega
    | true =>
      rw [signed, if_pos rfl] at hzero
      omega
  | finite negative units => exact ⟨negative, units, rfl⟩

end Clamp

end ViewWriter.Binary64

namespace ViewWriter.Number

open Binary64

variable {a b : Number} {x : Binary64} {m n : ℤ}

lemma le_iff (ha : a.rank? = some (.units m)) (hb : b.rank? = some (.units n)) :
    a.le b = true ↔ m ≤ n := by
  have hlt : a.lt b = decide (m < n) := by
    rw [lt, ha, hb]
    rfl
  have heq : a.eq b = (Rank.units m == Rank.units n) := by rw [eq, ha, hb]
  rw [le, hlt, heq, Bool.or_eq_true, decide_eq_true_eq, beq_iff_eq, Rank.units.injEq, le_iff_lt_or_eq]

lemma within_iff : ((int 0).le (float x) && (float x).le (int 1)) = true ↔ x.IsShare := by
  cases x with
  | nan => exact iff_of_false Bool.false_ne_true fun ⟨a, ha, _⟩ => nomatch ha
  | infinite negative =>
    refine iff_of_false ?_ fun h => ?_
    · cases negative with
      | false =>
        have hone : (float (.infinite false)).le (int 1) = false := rfl
        rw [hone, Bool.and_false]
        exact Bool.false_ne_true
      | true =>
        have hzero : (int 0).le (float (.infinite true)) = false := rfl
        rw [hzero, Bool.false_and]
        exact Bool.false_ne_true
    · obtain ⟨_, _, hfinite⟩ := h.exists_finite
      cases hfinite
  | finite negative units =>
    have hzero : (int 0).rank? = some (.units 0) := by rw [rank?, Int.zero_mul]
    have hone : (int 1).rank? = some (.units unit) := by rw [rank?, Int.one_mul]
    rw [Bool.and_eq_true, le_iff hzero rfl, le_iff rfl hone]
    exact ⟨fun h => ⟨_, rfl, h⟩, fun ⟨a, ha, h⟩ => Option.some.inj ha ▸ h⟩

end ViewWriter.Number
