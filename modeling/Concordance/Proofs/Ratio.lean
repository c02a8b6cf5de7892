import Concordance.Number.Ratio

/-!
# When a quotient is a double

A quotient of counts is found as long as it is not too large, and a quotient of at
least one is not lost in the rounding.
-/
namespace Concordance

theorem one_lt_pow_1023 : 1 < Nat.pow 2 1023 := by
  -- The power is too long to be evaluated.
  generalize h : 1023 = k
  exact Nat.one_lt_two_pow (by omega)

theorem log2_lt_of_lt_pow {n k : Nat} (hn : n ≠ 0) (h : n < Nat.pow 2 k) : n.log2 < k :=
  (Nat.log2_lt hn).mpr h

theorem roundDiv_pos {num den : Nat} (hden : 0 < den) (h : den ≤ num) : 0 < roundDiv num den := by
  have hwhole : 0 < num / den := Nat.div_pos h hden
  simp only [roundDiv]
  split
  · exact hwhole
  · split <;> omega

namespace Dyadic

/-- The exponent of a quotient exceeds the difference of the lengths at most by the place that is
left of the 53 digits. -/
theorem exponentOf_le (num den : Nat) :
    exponentOf num den ≤ max minExponent ((num.log2 : Int) - den.log2 - 52) := by
  simp only [exponentOf]
  split <;> omega

theorem nearest_exponent_le (num den : Nat) :
    (nearest num den).2 ≤ max minExponent ((num.log2 : Int) - den.log2 - 52) + 1 := by
  have h := exponentOf_le num den
  simp only [nearest]
  split <;> simp only <;> omega

/-- A quotient of at least one has units at its exponent. -/
theorem unitsOf_pos {num den : Nat} (hden : 0 < den) (h : den ≤ num) :
    0 < unitsOf num den (exponentOf num den) := by
  unfold unitsOf
  split
  · next hexponent =>
    have hnum : num ≠ 0 := by omega
    -- The exponent is not negative, so `num` has many more digits than `den`.
    obtain ⟨k, hk⟩ := Int.eq_ofNat_of_zero_le hexponent
    have hle := exponentOf_le num den
    rw [hk, minExponent] at hle
    have hlengths : den.log2 + 1 + k ≤ num.log2 := by omega
    rw [hk, Int.toNat_natCast]
    refine roundDiv_pos (Nat.mul_pos hden (Nat.pow_pos (by decide))) ?_
    calc den * 2 ^ k
      _ ≤ 2 ^ (den.log2 + 1) * 2 ^ k := Nat.mul_le_mul_right _ (Nat.le_of_lt Nat.lt_log2_self)
      _ = 2 ^ (den.log2 + 1 + k) := (Nat.pow_add ..).symm
      _ ≤ 2 ^ num.log2 := Nat.pow_le_pow_right (by decide) hlengths
      _ ≤ num := Nat.log2_self_le hnum
  · refine roundDiv_pos hden ?_
    exact Nat.le_trans h (Nat.le_mul_of_pos_right _ (Nat.pow_pos (by decide)))

theorem nearest_mantissa_pos {num den : Nat} (hden : 0 < den) (h : den ≤ num) :
    0 < (nearest num den).1 := by
  simp only [nearest]
  split
  · exact Nat.pow_pos (by decide)
  · exact unitsOf_pos hden h

end Dyadic

/-- A quotient of a count by a positive one is a double where it is at most one or the count has
at most 1023 digits. It is not zero where it is at least one. -/
theorem ratio_eq_ok {num den : Nat} (hden : 0 < den) (h : num ≤ den ∨ num < Nat.pow 2 1023) :
    ∃ d, ratio num den = .ok d ∧ d.negative = false ∧ (den ≤ num → d.mantissa ≠ 0) := by
  have hlengths : (num.log2 : Int) - den.log2 ≤ 1022 := by
    by_cases hzero : num = 0
    · subst hzero
      have hlog : Nat.log2 0 = 0 := rfl
      omega
    · obtain hle | hlt := h
      · have hpower := Nat.le_trans (Nat.log2_self_le hzero) hle
        have hlog := (Nat.le_log2 (Nat.ne_of_gt hden)).mpr hpower
        omega
      · have hlog := log2_lt_of_lt_pow hzero hlt
        omega
  rw [ratio, quotient]
  have hsign : (decide ((num : Int) < 0) != decide ((den : Int) < 0)) = false := by
    rw [decide_eq_false (by omega), decide_eq_false (by omega)]
    rfl
  have hne : ¬(den : Int) = 0 := by omega
  simp only [hsign, if_neg hne]
  by_cases hzero : (num : Int) = 0
  · rw [if_pos hzero]
    exact ⟨_, rfl, rfl, fun hle => by omega⟩
  · have hexponent := Dyadic.nearest_exponent_le num den
    have hfits : ¬Dyadic.maxExponent < (Dyadic.nearest num den).2 := by
      rw [Dyadic.minExponent] at hexponent
      rw [Dyadic.maxExponent]
      omega
    rw [if_neg hzero, Int.natAbs_natCast, Int.natAbs_natCast, if_neg hfits]
    exact ⟨_, rfl, rfl, fun hle => Nat.ne_of_gt (Dyadic.nearest_mantissa_pos hden hle)⟩

end Concordance
