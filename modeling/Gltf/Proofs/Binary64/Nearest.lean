import Gltf.Proofs.Binary64.Rounding
import Mathlib

/-!
Rounding goes to a nearest number. The numbers near a positive one are multiples of the power of two
at its lowest exponent; those with lower exponents lie below the least of these multiples that is not
below them.
-/

namespace Gltf.Binary64

theorem abs_sub_roundEven_le_half {t : ℚ} (ht : 0 ≤ t) : |t - roundEven t| ≤ 1 / 2 := by
  have hleast : (⌊t⌋₊ : ℚ) ≤ t := Nat.floor_le ht
  have hgreatest : t < ⌊t⌋₊ + 1 := Nat.lt_floor_add_one t
  rw [roundEven, abs_le]
  split_ifs with h
  · have hhalf : 2 * (t - ⌊t⌋₊) ≤ 1 := by
      rcases h with h | h
      · exact h.le
      · exact h.1.le
    constructor <;> linarith
  · have hhalf : 1 ≤ 2 * (t - ⌊t⌋₊) := not_lt.1 fun hlt => h (.inl hlt)
    push_cast
    constructor <;> linarith

/-- No natural number is nearer. -/
theorem abs_sub_roundEven_le {t : ℚ} (ht : 0 ≤ t) (n : ℕ) : |t - roundEven t| ≤ |t - n| := by
  have hhalf := abs_sub_roundEven_le_half ht
  by_cases hn : n = roundEven t
  · rw [hn]
  · have hapart : (1 : ℚ) ≤ |(roundEven t : ℚ) - n| := by
      have hne : (roundEven t : ℤ) - n ≠ 0 := by omega
      exact_mod_cast Int.one_le_abs hne
    have htriangle : |(roundEven t : ℚ) - n| ≤ |roundEven t - t| + |t - n| := abs_sub_le _ _ _
    rw [abs_sub_comm (roundEven t : ℚ) t] at htriangle
    linarith

/-! ### Numbers by their magnitudes -/

theorem absValue_of_subnormal {x : Binary64} (h : x.magnitude < unitWeight) :
    x.absValue = x.magnitude * 2 ^ (-1074 : ℤ) := by
  rw [absValue, significand, exponent, if_pos h, if_pos h]

theorem absValue_of_normal {x : Binary64} {k j : ℕ} (h : x.magnitude = (k + 1) * unitWeight + j)
    (hj : j < unitWeight) : x.absValue = (unitWeight + j) * 2 ^ ((k : ℤ) - 1074) := by
  have hdiv : x.magnitude / unitWeight = k + 1 := by
    rw [h, Nat.add_comm, Nat.add_mul_div_right _ _ unitWeight_pos, Nat.div_eq_of_lt hj, Nat.zero_add]
  have hmod : x.magnitude % unitWeight = j := by
    rw [h, Nat.mul_add_mod_self_right, Nat.mod_eq_of_lt hj]
  have hnormal : ¬x.magnitude < unitWeight := by
    rw [not_lt, h, Nat.succ_mul]
    omega
  have hexponent : x.exponent = k - 1074 := by
    rw [exponent, if_neg hnormal, hdiv]
    omega
  rw [absValue, hexponent, significand, if_neg hnormal, hmod]
  push_cast
  ring

/-- The value of a number by its place among the multiples of a power of two, the last of which is
the first of the next power. -/
theorem absValue_of_magnitude {x : Binary64} {k s : ℕ} (h : x.magnitude = k * unitWeight + s)
    (hs : s ≤ 2 * unitWeight) (hk : k = 0 ∨ unitWeight ≤ s) :
    x.absValue = s * 2 ^ ((k : ℤ) - 1074) := by
  by_cases hsmall : s < unitWeight
  · obtain rfl : k = 0 := hk.resolve_right (not_le.2 hsmall)
    rw [Nat.zero_mul, Nat.zero_add] at h
    rw [absValue_of_subnormal (h ▸ hsmall), h]
    rfl
  · obtain ⟨j, rfl⟩ := Nat.exists_eq_add_of_le (not_lt.1 hsmall)
    rcases (Nat.lt_or_eq_of_le (show j ≤ unitWeight by omega)) with hj | rfl
    · rw [absValue_of_normal (k := k) (j := j) (by rw [h]; ring) hj]
      push_cast
      rfl
    · have hnext := absValue_of_normal (k := k + 1) (j := 0) (by rw [h]; ring) unitWeight_pos
      have hpow : (2 : ℚ) ^ (((k + 1 : ℕ) : ℤ) - 1074) = 2 * 2 ^ ((k : ℤ) - 1074) := by
        rw [← zpow_one_add₀ two_ne_zero]
        congr 1
        push_cast
        ring
      rw [hnext, hpow]
      push_cast
      ring

/-! ### Rounded numbers -/

theorem lowestExponent_ge (r : ℚ) : -1074 ≤ lowestExponent r := le_max_right _ _

theorem roundEven_le {t : ℚ} {n : ℕ} (ht : 0 ≤ t) (h : t < n) : roundEven t ≤ n := by
  have hfloor : ⌊t⌋₊ < n := (Nat.floor_lt ht).2 h
  rw [roundEven]
  split_ifs <;> omega

theorem scaled_lt {r : ℚ} (hpos : 0 < r) :
    r / 2 ^ lowestExponent r < (2 * unitWeight : ℕ) := by
  have hpow : (0 : ℚ) < 2 ^ lowestExponent r := by positivity
  have hlog : Int.log 2 r < 1 + (52 + lowestExponent r) := by
    rw [lowestExponent]
    omega
  have hlt := (log_lt_iff hpos).1 hlog
  rw [zpow_one_add₀ two_ne_zero, zpow_add₀ two_ne_zero, ← mul_assoc] at hlt
  rw [div_lt_iff₀ hpow]
  push_cast
  rwa [cast_unitWeight]

/-- What a number is rounded to is a multiple of the power at its lowest exponent. -/
theorem absValue_of_rounded {r : ℚ} (hpos : 0 < r) {x : Binary64}
    (hx : x.magnitude = roundedMagnitude r) (hfinite : x.isFinite = true) :
    x.absValue = roundEven (r / 2 ^ lowestExponent r) * 2 ^ lowestExponent r := by
  have hlowest := lowestExponent_ge r
  have hscaled : 0 ≤ r / 2 ^ lowestExponent r := by positivity
  have hlt : x.magnitude < infinityMagnitude := by simpa [isFinite] using hfinite
  rw [roundedMagnitude, if_neg hpos.ne'] at hx
  rw [hx] at hlt
  rw [min_eq_right (by omega)] at hx
  have hkept : (lowestExponent r + 1074).toNat = 0 ∨
      unitWeight ≤ roundEven (r / 2 ^ lowestExponent r) := by
    by_cases hleast : lowestExponent r = -1074
    · exact .inl (by rw [hleast]; rfl)
    · exact .inr (le_roundEven (unitWeight_le_scaled hpos hleast))
  have hexponent : ((lowestExponent r + 1074).toNat : ℤ) - 1074 = lowestExponent r := by omega
  rw [absValue_of_magnitude hx (roundEven_le hscaled (scaled_lt hpos)) hkept, hexponent]

theorem exponent_ge (x : Binary64) : -1074 ≤ x.exponent := by
  rw [exponent]
  split_ifs with h
  · rfl
  · have hone : 1 ≤ x.magnitude / unitWeight :=
      (Nat.one_le_div_iff unitWeight_pos).2 (not_lt.1 h)
    omega

theorem significand_le (x : Binary64) : x.significand ≤ 2 * unitWeight := by
  rw [significand]
  split_ifs with h
  · omega
  · have hmod : x.magnitude % unitWeight < unitWeight := Nat.mod_lt _ unitWeight_pos
    omega

/-- A number is a multiple of a power of two, or below the multiples that have 53 bits. -/
theorem exists_multiple (y : Binary64) (q : ℤ) :
    (∃ n : ℕ, y.absValue = n * 2 ^ q) ∨ -1074 < q ∧ y.absValue ≤ unitWeight * 2 ^ q := by
  have hleast := y.exponent_ge
  by_cases hq : q ≤ y.exponent
  · left
    obtain ⟨k, hk⟩ : ∃ k : ℕ, y.exponent = k + q := ⟨(y.exponent - q).toNat, by omega⟩
    refine ⟨y.significand * 2 ^ k, ?_⟩
    rw [absValue, hk, zpow_add₀ two_ne_zero, zpow_natCast]
    push_cast
    ring
  · right
    refine ⟨by omega, ?_⟩
    have hsignificand : (y.significand : ℚ) ≤ 2 * unitWeight := by exact_mod_cast y.significand_le
    calc y.absValue ≤ 2 * unitWeight * 2 ^ (q - 1) := by
          rw [absValue]
          gcongr
          · norm_num
          · omega
      _ = unitWeight * 2 ^ q := by
          rw [zpow_sub_one₀ two_ne_zero]
          ring

/-- No number is nearer than the one that is rounded to. -/
theorem abs_sub_absValue_le {r : ℚ} (hr : 0 ≤ r) {x : Binary64}
    (hx : x.magnitude = roundedMagnitude r) (hfinite : x.isFinite = true) (y : Binary64) :
    |r - x.absValue| ≤ |r - y.absValue| := by
  rcases hr.eq_or_lt with rfl | hpos
  · rw [roundedMagnitude, if_pos rfl] at hx
    rw [absValue_eq_zero_iff.2 hx, sub_self, abs_zero]
    exact abs_nonneg _
  have hpow : (0 : ℚ) < 2 ^ lowestExponent r := by positivity
  -- Among the multiples of the power, by scaling.
  have hmultiple (n : ℕ) : |r - x.absValue| ≤ |r - n * 2 ^ lowestExponent r| := by
    have hscale (m : ℚ) : |r - m * 2 ^ lowestExponent r| =
        |r / 2 ^ lowestExponent r - m| * 2 ^ lowestExponent r := by
      rw [← abs_of_pos hpow, ← abs_mul, abs_of_pos hpow, sub_mul, div_mul_cancel₀ _ hpow.ne']
    rw [absValue_of_rounded hpos hx hfinite, hscale, hscale]
    exact mul_le_mul_of_nonneg_right (abs_sub_roundEven_le (div_nonneg hr hpow.le) n) hpow.le
  rcases exists_multiple y (lowestExponent r) with ⟨n, hn⟩ | ⟨hleast, hbelow⟩
  · rw [hn]
    exact hmultiple n
  · have hkept := unitWeight_le_scaled hpos hleast.ne'
    rw [le_div_iff₀ hpow] at hkept
    calc |r - x.absValue| ≤ |r - unitWeight * 2 ^ lowestExponent r| := hmultiple unitWeight
      _ = r - unitWeight * 2 ^ lowestExponent r := abs_of_nonneg (sub_nonneg.2 hkept)
      _ ≤ r - y.absValue := by linarith
      _ ≤ |r - y.absValue| := le_abs_self _

theorem roundedMagnitude_lt (r : ℚ) : roundedMagnitude r < signWeight := by
  have hinfinity : infinityMagnitude < signWeight := by decide
  rw [roundedMagnitude]
  split_ifs
  · decide
  · exact (min_le_left _ _).trans_lt hinfinity

/-- A decimal is read as a number to which no other is nearer. -/
theorem abs_sub_ofDecimal_le {negative : Bool} {digits : ℕ} {scale : ℤ}
    (hfinite : (ofDecimal negative digits scale).isFinite = true) (y : Binary64) :
    |digits * 10 ^ scale - (ofDecimal negative digits scale).absValue| ≤
      |digits * 10 ^ scale - y.absValue| := by
  refine abs_sub_absValue_le (by positivity) ?_ hfinite y
  rw [ofDecimal_eq, magnitude_ofMagnitude _ (roundedMagnitude_lt _)]

end Gltf.Binary64
