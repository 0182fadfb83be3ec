import Gltf.Proofs.Binary64.Rounding
import Mathlib

/-!
Integers among the numbers. A finite number has a rational value. Where that is an integer, the
number is told to be this integer, and the integer is rounded to the number itself, but for the sign
of a zero.
-/

namespace Gltf.Binary64

/-- The value of a finite number. -/
def value (x : Binary64) : ℚ := if x.isNegative then -x.absValue else x.absValue

theorem absValue_nonneg (x : Binary64) : 0 ≤ x.absValue := by
  rw [absValue]
  positivity

theorem abs_value (x : Binary64) : |x.value| = x.absValue := by
  rw [value]
  split_ifs
  · rw [abs_neg, abs_of_nonneg x.absValue_nonneg]
  · exact abs_of_nonneg x.absValue_nonneg

theorem ratio_pos (x : Binary64) : 0 < x.ratio.2 := by
  rw [ratio]
  split_ifs
  · exact Nat.one_pos
  · exact Nat.pow_pos Nat.two_pos

theorem absValue_eq_div (x : Binary64) : x.absValue = x.ratio.1 / x.ratio.2 := by
  rw [absValue, ratio]
  split_ifs with h
  · obtain ⟨k, hk⟩ := Int.eq_ofNat_of_zero_le h
    rw [hk]
    simp
  · obtain ⟨k, hk⟩ := Int.eq_ofNat_of_zero_le (show 0 ≤ -x.exponent by omega)
    have hexponent : x.exponent = -(k : ℤ) := by omega
    rw [hexponent]
    simp [div_eq_mul_inv]

/-- The quotient is a natural number exactly if nothing is left of it. -/
theorem absValue_eq_natCast_iff {x : Binary64} {n : ℕ} :
    x.absValue = n ↔ x.ratio.1 % x.ratio.2 = 0 ∧ x.ratio.1 / x.ratio.2 = n := by
  have hpos := x.ratio_pos
  have hden : (x.ratio.2 : ℚ) ≠ 0 := by exact_mod_cast hpos.ne'
  rw [absValue_eq_div, div_eq_iff hden]
  constructor
  · intro h
    have hnum : x.ratio.1 = n * x.ratio.2 := by exact_mod_cast h
    rw [hnum]
    exact ⟨Nat.mul_mod_left _ _, Nat.mul_div_cancel _ hpos⟩
  · rintro ⟨hmod, rfl⟩
    exact_mod_cast (Nat.div_mul_cancel (Nat.dvd_of_mod_eq_zero hmod)).symm

theorem natAbs_eq_absValue {x : Binary64} {n : ℤ} (hvalue : x.value = n) : x.absValue = n.natAbs := by
  rw [← abs_value, hvalue, Nat.cast_natAbs, Int.cast_abs]

/-- A number is told to be an integer exactly if its value is that. -/
theorem toInt?_eq_some_iff {x : Binary64} {n : ℤ} :
    x.toInt? = some n ↔ x.isFinite = true ∧ x.value = n := by
  rw [toInt?]
  split_ifs with hwhole hnegative
  · have habs := absValue_eq_natCast_iff.2 ⟨hwhole.2, rfl⟩
    rw [and_iff_right hwhole.1, value, if_pos hnegative, habs, Option.some.injEq,
      ← @Int.cast_inj ℚ, Int.cast_neg, Int.cast_natCast]
  · have habs := absValue_eq_natCast_iff.2 ⟨hwhole.2, rfl⟩
    rw [and_iff_right hwhole.1, value, if_neg hnegative, habs, Option.some.injEq,
      ← @Int.cast_inj ℚ, Int.cast_natCast]
  · constructor
    · intro h
      cases h
    · rintro ⟨hfinite, hvalue⟩
      exact absurd ⟨hfinite, (absValue_eq_natCast_iff.1 (natAbs_eq_absValue hvalue)).1⟩ hwhole

/-- An integer that is the value of a number is rounded to it, unless it is a negative zero. -/
theorem ofInt_eq {x : Binary64} {n : ℤ} (hfinite : x.isFinite = true) (hvalue : x.value = n)
    (hzero : n = 0 → x.isNegative = false) : ofInt n = x := by
  have habs := natAbs_eq_absValue hvalue
  have hsign : decide (n < 0) = x.isNegative := by
    have hnonneg := x.absValue_nonneg
    rw [value] at hvalue
    cases hnegative : x.isNegative with
    | false =>
        rw [hnegative, if_neg Bool.false_ne_true] at hvalue
        have hn : 0 ≤ n := by exact_mod_cast hvalue ▸ hnonneg
        simpa using hn
    | true =>
        rw [hnegative, if_pos rfl] at hvalue
        have hn : n ≤ 0 := by
          have hle : (n : ℚ) ≤ 0 := by linarith
          exact_mod_cast hle
        have hne : n ≠ 0 := fun h => Bool.false_ne_true ((hzero h).symm.trans hnegative)
        simpa using lt_of_le_of_ne hn hne
  rw [ofInt, ofRatio, nearestMagnitude_eq _ Nat.one_pos, Nat.cast_one, div_one, ← habs,
    roundedMagnitude_absValue hfinite, hsign, ofMagnitude_magnitude]

end Gltf.Binary64
