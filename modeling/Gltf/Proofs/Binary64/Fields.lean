import Gltf.Proofs.Binary64.Integers
import Gltf.Proofs.Binary64.Nearest
import Mathlib

/-!
The number that 64 bits stand for, by their fields. The bits are a sign, eleven bits of exponent and
52 of fraction; each finite number is one dyadic rational, and no infinity and no NaN is any.
-/

namespace Gltf.Binary64

/-- The exact value of 64 bits. The fraction has a leading one unless the exponent is zero; bits
whose exponent is 2047 have no value. -/
inductive StandsFor (x : Binary64) : ℚ → Prop
  | subnormal {sign fraction : ℕ} (hsign : sign < 2) (hfraction : fraction < 2 ^ 52)
      (hbits : x.bits.toNat = sign * 2 ^ 63 + fraction) :
      StandsFor x ((-1) ^ sign * (fraction * 2 ^ (-1074 : ℤ)))
  | normal {sign exponent fraction : ℕ} (hsign : sign < 2) (least : 0 < exponent)
      (greatest : exponent < 2047) (hfraction : fraction < 2 ^ 52)
      (hbits : x.bits.toNat = sign * 2 ^ 63 + exponent * 2 ^ 52 + fraction) :
      StandsFor x ((-1) ^ sign * ((2 ^ 52 + fraction) * 2 ^ ((exponent : ℤ) - 1075)))

variable {x : Binary64} {sign m : ℕ} {q : ℚ}

theorem magnitude_of_bits (hm : m < 2 ^ 63) (hbits : x.bits.toNat = sign * 2 ^ 63 + m) :
    x.magnitude = m := by
  have hweight : signWeight = 2 ^ 63 := rfl
  rw [magnitude, hbits, hweight, Nat.mul_add_mod_self_right, Nat.mod_eq_of_lt hm]

theorem value_of_bits (hsign : sign < 2) (hm : m < 2 ^ 63)
    (hbits : x.bits.toNat = sign * 2 ^ 63 + m) : x.value = (-1) ^ sign * x.absValue := by
  have hnegative : x.isNegative = true ↔ sign = 1 := by
    rw [isNegative, decide_eq_true_iff, hbits, show signWeight = 2 ^ 63 from rfl]
    omega
  rw [value]
  simp only [hnegative]
  rcases (show sign = 0 ∨ sign = 1 by omega) with rfl | rfl <;> simp

theorem StandsFor.isFinite (h : x.StandsFor q) : x.isFinite = true := by
  rw [Binary64.isFinite, decide_eq_true_iff, infinityMagnitude_eq]
  cases h with
  | subnormal hsign hfraction hbits =>
      rw [magnitude_of_bits (by omega) hbits, unitWeight]
      omega
  | normal hsign least greatest hfraction hbits =>
      rw [Nat.add_assoc] at hbits
      rw [magnitude_of_bits (by omega) hbits, unitWeight]
      omega

theorem StandsFor.value_eq (h : x.StandsFor q) : x.value = q := by
  cases h with
  | subnormal hsign hfraction hbits =>
      have hmagnitude := magnitude_of_bits (by omega) hbits
      rw [value_of_bits hsign (by omega) hbits,
        absValue_of_subnormal (by rw [hmagnitude]; exact hfraction), hmagnitude]
  | @normal sign exponent fraction hsign least greatest hfraction hbits =>
      rw [Nat.add_assoc] at hbits
      have hmagnitude : x.magnitude = (exponent - 1 + 1) * unitWeight + fraction := by
        rw [magnitude_of_bits (by omega) hbits, Nat.sub_add_cancel least]
        rfl
      have hexponent : ((exponent - 1 : ℕ) : ℤ) - 1074 = exponent - 1075 := by omega
      rw [value_of_bits hsign (by omega) hbits, absValue_of_normal hmagnitude hfraction, hexponent,
        cast_unitWeight]
      norm_num

theorem exists_standsFor (hfinite : x.isFinite = true) : ∃ q, x.StandsFor q := by
  rw [Binary64.isFinite, decide_eq_true_iff, infinityMagnitude_eq, magnitude, signWeight,
    unitWeight] at hfinite
  have hlt := x.bits.toNat_lt
  by_cases hsubnormal : x.bits.toNat % 2 ^ 63 < 2 ^ 52
  · exact ⟨_, @StandsFor.subnormal x (x.bits.toNat / 2 ^ 63) _ (by omega) hsubnormal (by omega)⟩
  · exact ⟨_, @StandsFor.normal x (x.bits.toNat / 2 ^ 63) (x.bits.toNat % 2 ^ 63 / 2 ^ 52)
      (x.bits.toNat % 2 ^ 52) (by omega) (by omega) (by omega) (by omega) (by omega)⟩

theorem standsFor_iff : x.StandsFor q ↔ x.isFinite = true ∧ x.value = q := by
  constructor
  · intro h
    exact ⟨h.isFinite, h.value_eq⟩
  · rintro ⟨hfinite, rfl⟩
    obtain ⟨q, hq⟩ := exists_standsFor hfinite
    rwa [hq.value_eq]

end Gltf.Binary64
