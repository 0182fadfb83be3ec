import Gltf.Text.Case
import Mathlib

/-!
Lower case of ASCII texts. There each letter has one other form, and characters map one by one.
-/

namespace Gltf.Text

/-- A character is the lower-case one, or the capital 32 places before it. -/
theorem toNat_of_toLower {c d : Char} (h : c.toLower = d) :
    c.toNat = d.toNat ∨ 0x41 ≤ c.toNat ∧ c.toNat ≤ 0x5a ∧ c.toNat + 32 = d.toNat := by
  subst h
  by_cases hupper : c.isUpper = true
  · right
    have hbounds : 0x41 ≤ c.toNat ∧ c.toNat ≤ 0x5a := by
      simpa [Char.isUpper, UInt32.le_iff_toNat_le] using hupper
    have hvalid : (c.toNat + 32).isValidChar := .inl (by omega)
    rw [Char.toLower_eq_of_isUpper hupper, Char.toNat_ofNat, if_pos hvalid]
    exact ⟨hbounds.1, hbounds.2, rfl⟩
  · left
    rw [Char.toLower_eq_of_not_isUpper hupper]

theorem lowerAfter_of_ascii {cs : List Char} (h : ∀ c ∈ cs, c.toNat < 0x80) (before : List Char) :
    lowerAfter before cs = cs.map Char.toLower := by
  induction cs generalizing before with
  | nil => rfl
  | cons c cs ih =>
      have hc : c.toNat < 0x80 := h c (List.mem_cons_self ..)
      have hsigma : c ≠ 'Σ' := by
        rintro rfl
        revert hc
        decide
      have hdotted : c ≠ 'İ' := by
        rintro rfl
        revert hc
        decide
      rw [lowerAfter, ih fun d hd => h d (List.mem_cons_of_mem c hd), if_neg hsigma, if_neg hdotted,
        lowerChar, if_pos hc]
      rfl

theorem lower_of_ascii {cs : List Char} (h : ∀ c ∈ cs, c.toNat < 0x80) :
    lower cs = cs.map Char.toLower := lowerAfter_of_ascii h []

end Gltf.Text
