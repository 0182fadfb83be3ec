import Gltf.Binary64
import Mathlib

/-!
Rounding as a function of rational numbers. What a quotient or a decimal is rounded to depends on its
value alone, not on how it is written, and a value that is a number is rounded to this number.
-/

namespace Gltf.Binary64

/-- The natural number nearest to a rational one; of two, the even one. -/
def roundEven (r : ℚ) : ℕ :=
  if 2 * (r - ⌊r⌋₊) < 1 ∨ 2 * (r - ⌊r⌋₊) = 1 ∧ ⌊r⌋₊ % 2 = 0 then ⌊r⌋₊ else ⌊r⌋₊ + 1

/-- The exponent of the lowest bit that is kept of a positive number. -/
def lowestExponent (r : ℚ) : ℤ := max (Int.log 2 r - 52) (-1074)

/-- The magnitude nearest to a number that is not negative. -/
def roundedMagnitude (r : ℚ) : ℕ :=
  if r = 0 then 0
  else
    min infinityMagnitude
      ((lowestExponent r + 1074).toNat * unitWeight + roundEven (r / 2 ^ lowestExponent r))

/-- The absolute value of a finite number. -/
def absValue (x : Binary64) : ℚ := x.significand * 2 ^ x.exponent

/-! ### Quotients -/

theorem zpow_mul_pow_toNat {b : ℚ} (hb : b ≠ 0) (k : ℤ) : b ^ k * b ^ (-k).toNat = b ^ k.toNat := by
  rw [← zpow_natCast, ← zpow_natCast, ← zpow_add₀ hb]
  congr 1
  omega

/-- A quotient scaled by a power with an integer exponent. -/
theorem cast_scaled_div {b : ℕ} (hb : 0 < b) (num : ℕ) {den : ℕ} (hden : 0 < den) (k : ℤ) :
    ((num * b ^ (-k).toNat : ℕ) / (den * b ^ k.toNat : ℕ) : ℚ) = num / den / (b : ℚ) ^ k := by
  have hbase : (b : ℚ) ≠ 0 := by exact_mod_cast hb.ne'
  have hpow : (b : ℚ) ^ (-k).toNat ≠ 0 := pow_ne_zero _ hbase
  have hcast : (den : ℚ) ≠ 0 := by exact_mod_cast hden.ne'
  have hzpow : (b : ℚ) ^ k ≠ 0 := zpow_ne_zero _ hbase
  push_cast
  rw [← zpow_mul_pow_toNat hbase k]
  field_simp

theorem roundDiv_eq {num den : ℕ} (hden : 0 < den) : roundDiv num den = roundEven (num / den) := by
  have hcast : (0 : ℚ) < den := by exact_mod_cast hden
  have hfloor : ⌊(num / den : ℚ)⌋₊ = num / den := Nat.floor_div_eq_div num den
  have hrest : 2 * ((num / den : ℚ) - (num / den : ℕ)) = (2 * (num % den) : ℕ) / den := by
    have hsplit : (num : ℚ) = den * (num / den : ℕ) + (num % den : ℕ) := by
      exact_mod_cast (Nat.div_add_mod num den).symm
    rw [eq_div_iff hcast.ne', mul_assoc, sub_mul, div_mul_cancel₀ _ hcast.ne', hsplit]
    push_cast
    ring
  have hlt : ((2 * (num % den) : ℕ) / den : ℚ) < 1 ↔ 2 * (num % den) < den := by
    rw [div_lt_one hcast]
    exact_mod_cast Iff.rfl
  have heq : ((2 * (num % den) : ℕ) / den : ℚ) = 1 ↔ 2 * (num % den) = den := by
    rw [div_eq_one_iff_eq hcast.ne']
    exact_mod_cast Iff.rfl
  simp only [roundDiv, roundEven, hfloor, hrest, hlt, heq]

theorem le_log_iff {r : ℚ} (hr : 0 < r) {k : ℤ} : k ≤ Int.log 2 r ↔ 2 ^ k ≤ r := by
  rw [← Int.zpow_le_iff_le_log one_lt_two hr, Nat.cast_ofNat]

theorem log_lt_iff {r : ℚ} (hr : 0 < r) {k : ℤ} : Int.log 2 r < k ↔ r < 2 ^ k := by
  rw [← not_le, le_log_iff hr, not_le]

theorem log_eq {r : ℚ} {k : ℤ} (least : 2 ^ k ≤ r) (greatest : r < 2 ^ (k + 1)) :
    Int.log 2 r = k := by
  have hr : 0 < r := lt_of_lt_of_le (by positivity) least
  have hleast := (le_log_iff hr).2 least
  have hgreatest := (log_lt_iff hr).2 greatest
  omega

theorem two_pow_log2_le {n : ℕ} (h : 0 < n) : (2 : ℚ) ^ (n.log2 : ℤ) ≤ n := by
  rw [zpow_natCast]
  exact_mod_cast Nat.log2_self_le h.ne'

theorem lt_two_pow_log2 (n : ℕ) : (n : ℚ) < 2 ^ ((n.log2 : ℤ) + 1) := by
  have hlt : n < 2 ^ (n.log2 + 1) := Nat.lt_log2_self
  exact_mod_cast hlt

theorem binaryExponent_eq_log {num den : ℕ} (hnum : 0 < num) (hden : 0 < den) :
    binaryExponent num den = Int.log 2 (num / den : ℚ) := by
  have hcast : (0 : ℚ) < den := by exact_mod_cast hden
  have hbelow (k : ℤ) : num * Nat.pow 2 (-k).toNat < den * Nat.pow 2 k.toNat ↔
      (num / den : ℚ) < 2 ^ k := by
    have hscaled := cast_scaled_div two_pos num hden k
    have hpos : (0 : ℚ) < (den * 2 ^ k.toNat : ℕ) := by exact_mod_cast Nat.mul_pos hden (by simp)
    have hpow : (0 : ℚ) < 2 ^ k := by positivity
    rw [Nat.cast_ofNat] at hscaled
    rw [← div_lt_one₀ hpow, ← hscaled, div_lt_one hpos, Nat.cast_lt]
    rfl
  -- The difference of the logarithms is the exponent, or one more than it.
  have hleast : (2 : ℚ) ^ ((num.log2 : ℤ) - den.log2 - 1) ≤ num / den := by
    rw [le_div_iff₀ hcast]
    calc (2 : ℚ) ^ ((num.log2 : ℤ) - den.log2 - 1) * den
        ≤ 2 ^ ((num.log2 : ℤ) - den.log2 - 1) * 2 ^ ((den.log2 : ℤ) + 1) := by
          have := lt_two_pow_log2 den
          gcongr
      _ = 2 ^ (num.log2 : ℤ) := by
          rw [← zpow_add₀ (by norm_num)]
          congr 1
          ring
      _ ≤ num := two_pow_log2_le hnum
  have hgreatest : (num / den : ℚ) < 2 ^ ((num.log2 : ℤ) - den.log2 + 1) := by
    rw [div_lt_iff₀ hcast]
    calc (num : ℚ) < 2 ^ ((num.log2 : ℤ) + 1) := lt_two_pow_log2 num
      _ = 2 ^ ((num.log2 : ℤ) - den.log2 + 1) * 2 ^ (den.log2 : ℤ) := by
          rw [← zpow_add₀ (by norm_num)]
          congr 1
          ring
      _ ≤ 2 ^ ((num.log2 : ℤ) - den.log2 + 1) * den := by
          have := two_pow_log2_le hden
          gcongr
  rw [binaryExponent]
  simp only [hbelow]
  split_ifs with h
  · exact (log_eq hleast (by rwa [sub_add_cancel])).symm
  · exact (log_eq (not_lt.1 h) hgreatest).symm

theorem nearestMagnitude_eq (num : ℕ) {den : ℕ} (hden : 0 < den) :
    nearestMagnitude num den = roundedMagnitude (num / den) := by
  have hcast : (den : ℚ) ≠ 0 := by exact_mod_cast hden.ne'
  rcases Nat.eq_zero_or_pos num with rfl | hnum
  · simp [nearestMagnitude, roundedMagnitude]
  · have hne : (num / den : ℚ) ≠ 0 := div_ne_zero (by exact_mod_cast hnum.ne') hcast
    have hscale (k : ℤ) : roundDiv (num * Nat.pow 2 (-k).toNat) (den * Nat.pow 2 k.toNat) =
        roundEven (num / den / 2 ^ k) := by
      have hscaled := cast_scaled_div two_pos num hden k
      rw [Nat.cast_ofNat] at hscaled
      rw [Nat.pow_eq, Nat.pow_eq, roundDiv_eq (Nat.mul_pos hden (by simp)), hscaled]
    simp only [nearestMagnitude, roundedMagnitude, if_neg hnum.ne', if_neg hne, lowestExponent,
      binaryExponent_eq_log hnum hden, hscale]

/-! ### Numbers -/

theorem roundEven_natCast (n : ℕ) : roundEven n = n := by
  simp [roundEven]

theorem roundEven_of_lt_half {r : ℚ} (h : 2 * r < 1) : roundEven r = 0 := by
  have hfloor : ⌊r⌋₊ = 0 := Nat.floor_eq_zero.2 (by linarith)
  rw [roundEven, hfloor, if_pos (.inl (by simpa using h))]

theorem le_roundEven {r : ℚ} {n : ℕ} (h : n ≤ r) : n ≤ roundEven r := by
  have hfloor : n ≤ ⌊r⌋₊ := Nat.le_floor h
  rw [roundEven]
  split_ifs <;> omega

/-- The sign and the magnitude are all of a number. -/
theorem ofMagnitude_magnitude (x : Binary64) : ofMagnitude x.isNegative x.magnitude = x := by
  obtain ⟨bits⟩ := x
  have hbits := bits.toNat_lt
  have hsplit : (if signWeight ≤ bits.toNat then signWeight + bits.toNat % signWeight
      else bits.toNat % signWeight) = bits.toNat := by
    by_cases hnegative : signWeight ≤ bits.toNat
    · rw [if_pos hnegative]
      simp only [signWeight] at hnegative ⊢
      omega
    · rw [if_neg hnegative]
      exact Nat.mod_eq_of_lt (not_le.1 hnegative)
  simp only [ofMagnitude, isNegative, magnitude, decide_eq_true_eq, hsplit, UInt64.ofNat_toNat]

theorem magnitude_ofMagnitude (negative : Bool) {m : ℕ} (h : m < signWeight) :
    (ofMagnitude negative m).magnitude = m := by
  have hpositive : (UInt64.ofNat m).toNat = m := by
    refine UInt64.toNat_ofNat_of_lt' (lt_trans h ?_)
    decide
  have hnegative : (UInt64.ofNat (signWeight + m)).toNat = signWeight + m := by
    refine UInt64.toNat_ofNat_of_lt' (lt_of_lt_of_eq (Nat.add_lt_add_left h _) ?_)
    rfl
  cases negative with
  | false =>
      simp only [magnitude, ofMagnitude, Bool.false_eq_true, if_false, hpositive]
      exact Nat.mod_eq_of_lt h
  | true =>
      simp only [magnitude, ofMagnitude, if_true, hnegative, Nat.add_mod_left]
      exact Nat.mod_eq_of_lt h

theorem unitWeight_pos : 0 < unitWeight := by decide

theorem absValue_eq_zero_iff {x : Binary64} : x.absValue = 0 ↔ x.magnitude = 0 := by
  have hpow : (2 : ℚ) ^ x.exponent ≠ 0 := zpow_ne_zero _ two_ne_zero
  have hunit := unitWeight_pos
  rw [absValue, mul_eq_zero, or_iff_left hpow, Nat.cast_eq_zero, significand]
  split_ifs with h
  · rfl
  · generalize unitWeight = u at *
    omega

theorem cast_unitWeight : (unitWeight : ℚ) = 2 ^ (52 : ℤ) := by norm_num [unitWeight]

theorem absValue_pos {x : Binary64} (hne : x.magnitude ≠ 0) : 0 < x.absValue := by
  refine lt_of_le_of_ne ?_ (Ne.symm (mt absValue_eq_zero_iff.1 hne))
  rw [absValue]
  positivity

/-- The exponent of a number is the lowest that rounding keeps of it. -/
theorem lowestExponent_absValue {x : Binary64} (hne : x.magnitude ≠ 0) :
    lowestExponent x.absValue = x.exponent := by
  by_cases hsubnormal : x.magnitude < unitWeight
  · have hexponent : x.exponent = -1074 := by rw [exponent, if_pos hsubnormal]
    have hsmall : x.absValue < 2 ^ (-1022 : ℤ) := by
      have hlt : (x.magnitude : ℚ) < 2 ^ (52 : ℤ) := by
        rw [← cast_unitWeight]
        exact_mod_cast hsubnormal
      rw [absValue, hexponent, significand, if_pos hsubnormal]
      calc (x.magnitude : ℚ) * 2 ^ (-1074 : ℤ) < 2 ^ (52 : ℤ) * 2 ^ (-1074 : ℤ) := by gcongr
        _ = 2 ^ (-1022 : ℤ) := (zpow_add₀ two_ne_zero _ _).symm
    have hlog := (log_lt_iff (absValue_pos hne)).2 hsmall
    rw [lowestExponent, hexponent]
    omega
  · have hleast : (2 : ℚ) ^ (52 : ℤ) ≤ x.significand := by
      rw [significand, if_neg hsubnormal, ← cast_unitWeight]
      exact_mod_cast Nat.le_add_left _ _
    have hgreatest : (x.significand : ℚ) < 2 ^ (53 : ℤ) := by
      have hmod : x.magnitude % unitWeight < unitWeight := Nat.mod_lt _ unitWeight_pos
      have hdouble : (2 : ℚ) ^ (53 : ℤ) = unitWeight + unitWeight := by norm_num [unitWeight]
      rw [significand, if_neg hsubnormal, hdouble]
      exact_mod_cast Nat.add_lt_add_right hmod _
    have hlog : Int.log 2 x.absValue = 52 + x.exponent := by
      refine log_eq ?_ ?_
      · rw [absValue, zpow_add₀ two_ne_zero]
        gcongr
      · have hsucc : 52 + x.exponent + 1 = 53 + x.exponent := by ring
        rw [absValue, hsucc, zpow_add₀ two_ne_zero]
        gcongr
    have hone : 1 ≤ x.magnitude / unitWeight :=
      (Nat.one_le_div_iff unitWeight_pos).2 (not_lt.1 hsubnormal)
    rw [lowestExponent, hlog, exponent, if_neg hsubnormal]
    omega

theorem infinityMagnitude_eq : infinityMagnitude = 2047 * unitWeight := rfl

/-- A finite number is rounded to itself. -/
theorem roundedMagnitude_absValue {x : Binary64} (hfinite : x.isFinite = true) :
    roundedMagnitude x.absValue = x.magnitude := by
  by_cases hzero : x.magnitude = 0
  · rw [roundedMagnitude, if_pos (absValue_eq_zero_iff.2 hzero), hzero]
  · have hpow : (2 : ℚ) ^ x.exponent ≠ 0 := zpow_ne_zero _ two_ne_zero
    have hsignificand : roundEven (x.absValue / 2 ^ x.exponent) = x.significand := by
      rw [absValue, mul_div_assoc, div_self hpow, mul_one, roundEven_natCast]
    have hmagnitude : (x.exponent + 1074).toNat * unitWeight + x.significand = x.magnitude := by
      rw [exponent, significand]
      split_ifs with hsubnormal
      · simp
      · have hone : 1 ≤ x.magnitude / unitWeight :=
          (Nat.one_le_div_iff unitWeight_pos).2 (not_lt.1 hsubnormal)
        have hplace : ((x.magnitude / unitWeight : ℕ) - 1075 + 1074 : ℤ).toNat + 1 =
            x.magnitude / unitWeight := by omega
        calc _ = (((x.magnitude / unitWeight : ℕ) - 1075 + 1074 : ℤ).toNat + 1) * unitWeight +
              x.magnitude % unitWeight := by ring
          _ = x.magnitude := by rw [hplace, Nat.div_add_mod']
    have hlt : x.magnitude < infinityMagnitude := by simpa [isFinite] using hfinite
    rw [roundedMagnitude, if_neg (mt absValue_eq_zero_iff.1 hzero),
      lowestExponent_absValue hzero, hsignificand, hmagnitude, min_eq_right hlt.le]

/-! ### Decimals -/

/-- Above the least exponent, 53 bits of a number are kept. -/
theorem unitWeight_le_scaled {r : ℚ} (hpos : 0 < r) (h : lowestExponent r ≠ -1074) :
    unitWeight ≤ r / 2 ^ lowestExponent r := by
  have hpow : (0 : ℚ) < 2 ^ lowestExponent r := by positivity
  have hlowest : lowestExponent r = Int.log 2 r - 52 := by
    rw [lowestExponent] at h ⊢
    omega
  rw [le_div_iff₀ hpow, cast_unitWeight, ← zpow_add₀ two_ne_zero, hlowest, add_sub_cancel]
  exact (le_log_iff hpos).1 le_rfl

/-- What is too large for the numbers. -/
theorem roundedMagnitude_of_large {r : ℚ} (h : 2 ^ (1024 : ℤ) ≤ r) :
    roundedMagnitude r = infinityMagnitude := by
  have hpos : 0 < r := lt_of_lt_of_le (by positivity) h
  have hlog := (le_log_iff hpos).2 h
  have hlowest : 972 ≤ lowestExponent r := by
    rw [lowestExponent]
    omega
  have hround : unitWeight ≤ roundEven (r / 2 ^ lowestExponent r) :=
    le_roundEven (unitWeight_le_scaled hpos (by omega))
  have hproduct : 2046 * unitWeight ≤ (lowestExponent r + 1074).toNat * unitWeight :=
    Nat.mul_le_mul_right _ (by omega)
  rw [roundedMagnitude, if_neg hpos.ne', infinityMagnitude_eq, min_eq_left]
  omega

/-- What is nearer to zero than to every other number. -/
theorem roundedMagnitude_of_small {r : ℚ} (hpos : 0 < r) (h : r < 2 ^ (-1075 : ℤ)) :
    roundedMagnitude r = 0 := by
  have hlog := (log_lt_iff hpos).2 h
  have hlowest : lowestExponent r = -1074 := by
    rw [lowestExponent]
    omega
  have hhalf : 2 * (r / 2 ^ (-1074 : ℤ)) < 1 := by
    have hpow : (0 : ℚ) < 2 ^ (-1074 : ℤ) := by positivity
    have hdouble : (2 : ℚ) ^ (-1074 : ℤ) = 2 * 2 ^ (-1075 : ℤ) := by
      rw [← zpow_one_add₀ two_ne_zero]
      rfl
    rw [← mul_div_assoc, div_lt_one hpow, hdouble]
    linarith
  rw [roundedMagnitude, if_neg hpos.ne', hlowest, roundEven_of_lt_half hhalf]
  simp

theorem ten_pow_le {n : ℕ} (h : 0 < n) : (10 : ℚ) ^ ((decimalLength n : ℤ) - 1) ≤ n := by
  obtain ⟨k, hk⟩ : ∃ k, decimalLength n = k + 1 :=
    Nat.exists_eq_succ_of_ne_zero (Nat.length_toDigits_pos.ne')
  have hle : 10 ^ k ≤ n := by
    cases k with
    | zero => exact h
    | succ k =>
        rw [← not_lt, ← Nat.length_toDigits_le_iff (by norm_num) (Nat.succ_pos k)]
        have hlength : (Nat.toDigits 10 n).length = k + 1 + 1 := hk
        omega
  rw [hk, Nat.cast_succ, add_sub_cancel_right, zpow_natCast]
  exact_mod_cast hle

theorem lt_ten_pow (n : ℕ) : (n : ℚ) < 10 ^ (decimalLength n : ℤ) := by
  have hlt : n < 10 ^ decimalLength n :=
    (Nat.length_toDigits_le_iff (by norm_num) Nat.length_toDigits_pos).1 le_rfl
  rw [zpow_natCast]
  exact_mod_cast hlt

theorem two_pow_le_ten_pow {k n : ℕ} (h : 2 ^ k ≤ 10 ^ n) : (2 : ℚ) ^ (k : ℤ) ≤ 10 ^ (n : ℤ) := by
  rw [zpow_natCast, zpow_natCast]
  exact_mod_cast h

/-- The bounds in `ofDecimal` save work and do not matter: a decimal is rounded like any quotient. -/
theorem ofDecimal_eq (negative : Bool) (digits : ℕ) (scale : ℤ) :
    ofDecimal negative digits scale =
      ofMagnitude negative (roundedMagnitude (digits * 10 ^ scale)) := by
  rcases Nat.eq_zero_or_pos digits with rfl | hdigits
  · simp [ofDecimal, roundedMagnitude]
  have hcast : (0 : ℚ) < digits := by exact_mod_cast hdigits
  have hpos : (0 : ℚ) < digits * 10 ^ scale := by positivity
  simp only [ofDecimal, hdigits.ne', false_or]
  split_ifs with hsmall hlarge
  · rw [roundedMagnitude_of_small hpos]
    calc (digits : ℚ) * 10 ^ scale
        < 10 ^ (decimalLength digits : ℤ) * 10 ^ scale := by
          have := lt_ten_pow digits
          gcongr
      _ = 10 ^ (decimalLength digits + scale) := (zpow_add₀ (by norm_num) _ _).symm
      _ ≤ 10 ^ (-330 : ℤ) := zpow_le_zpow_right₀ (by norm_num) hsmall.le
      _ ≤ 2 ^ (-1075 : ℤ) := by
          have hpow := two_pow_le_ten_pow (k := 1075) (n := 330) (by decide +kernel)
          rw [zpow_neg, zpow_neg]
          exact inv_anti₀ (by positivity) hpow
  · rw [roundedMagnitude_of_large]
    calc (2 : ℚ) ^ (1024 : ℤ) ≤ 10 ^ (310 : ℤ) :=
          two_pow_le_ten_pow (k := 1024) (n := 310) (by decide +kernel)
      _ ≤ 10 ^ ((decimalLength digits : ℤ) - 1 + scale) :=
          zpow_le_zpow_right₀ (by norm_num) (by omega)
      _ = 10 ^ ((decimalLength digits : ℤ) - 1) * 10 ^ scale := zpow_add₀ (by norm_num) _ _
      _ ≤ digits * 10 ^ scale := by
          have := ten_pow_le hdigits
          gcongr
  · have hscaled := cast_scaled_div (b := 10) (by norm_num) digits one_pos (-scale)
    rw [neg_neg, one_mul, Nat.cast_one, div_one, Nat.cast_ofNat, zpow_neg, div_inv_eq_mul] at hscaled
    rw [ofRatio, Nat.pow_eq, Nat.pow_eq, nearestMagnitude_eq _ (by positivity), hscaled]

end Gltf.Binary64
