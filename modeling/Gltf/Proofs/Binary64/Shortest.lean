import Gltf.Binary64.Shortest
import Gltf.Proofs.Binary64.Rounding
import Mathlib

/-!
The shortest decimal of a number reads back as the number. A candidate is taken only if it does, and
where no candidate does, all digits stand, whose value is the number's.
-/

namespace Gltf.Binary64

def Decimal.value (d : Decimal) : ℚ := d.digits * 10 ^ d.scale

/-- The number that a decimal is read as, with the sign of `x`. -/
def Decimal.ReadsBack (x : Binary64) (d : Decimal) : Prop :=
  ofDecimal x.isNegative d.digits d.scale = x

/-- Only the value of a decimal matters. -/
theorem ofDecimal_congr (negative : Bool) {d d' : Decimal} (h : d.value = d'.value) :
    ofDecimal negative d.digits d.scale = ofDecimal negative d'.digits d'.scale := by
  simp only [Decimal.value] at h
  rw [ofDecimal_eq, ofDecimal_eq, h]

theorem readsBack_of_value {x : Binary64} (hfinite : x.isFinite = true) {d : Decimal}
    (h : d.value = x.absValue) : d.ReadsBack x := by
  rw [Decimal.value] at h
  rw [Decimal.ReadsBack, ofDecimal_eq, h, roundedMagnitude_absValue hfinite,
    ofMagnitude_magnitude]

theorem value_exactDecimal (x : Binary64) : x.exactDecimal.value = x.absValue := by
  rw [exactDecimal, absValue]
  split_ifs with h
  · obtain ⟨e, he⟩ := Int.eq_ofNat_of_zero_le h
    simp [Decimal.value, ratio, he]
  · obtain ⟨e, he⟩ : ∃ e : ℕ, x.exponent = -e := ⟨(-x.exponent).toNat, by omega⟩
    have hten : (10 : ℚ) ^ e = 2 ^ e * 5 ^ e := by
      rw [← mul_pow]
      norm_num
    simp only [Decimal.value, he, neg_neg, Int.toNat_natCast, zpow_neg, zpow_natCast, hten,
      Nat.pow_eq]
    push_cast
    field_simp

/-- Whichever candidate is tried first, the one that is taken has been checked. -/
theorem readsBack_of_neighbour? {x : Binary64} {count : ℕ} {d : Decimal}
    (h : neighbour? x count = some d) : d.ReadsBack x := by
  simp only [neighbour?] at h
  split_ifs at h <;>
  · cases h
    exact eq_of_beq ‹_›

theorem readsBack_shortest {x : Binary64} (hfinite : x.isFinite = true) :
    x.shortest.ReadsBack x := by
  rw [shortest]
  cases hfound : (List.range 17).findSome? fun n => neighbour? x (n + 1) with
  | none => exact readsBack_of_value hfinite (value_exactDecimal x)
  | some d =>
      obtain ⟨n, -, hn⟩ := List.exists_of_findSome?_eq_some hfound
      exact readsBack_of_neighbour? hn

end Gltf.Binary64
