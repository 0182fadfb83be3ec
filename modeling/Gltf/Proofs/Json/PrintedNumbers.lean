import Gltf.Json.Printer
import Gltf.Proofs.Binary64.Shortest
import Gltf.Proofs.Json.Numerals
import Mathlib

/-!
Printed numbers are literals of the grammar, with the number that was printed as their value. The
layouts of decimals only move the point and the zeros, so what a layout prints reads back as the
decimal does.
-/

namespace Gltf.Json.Syntax

/-! ### Digits of a number -/

namespace Digits

theorem value_append (ds ds' : Digits) :
    value (ds ++ ds') = ds.value * 10 ^ ds'.length + ds'.value := by
  simp only [value, List.reverse_append, List.map_append, Nat.ofDigits_append, List.length_map,
    List.length_reverse]
  ring

theorem value_replicate_zero (k : ℕ) : value (List.replicate k 0) = 0 := by
  simp only [value, List.reverse_replicate, List.map_replicate]
  exact Nat.ofDigits_replicate_zero

theorem text_replicate_zero (k : ℕ) : text (List.replicate k 0) = List.replicate k '0' := by
  rw [text, List.map_replicate]
  rfl

theorem take_text (ds : Digits) (k : ℕ) : ds.text.take k = Digits.text (ds.take k) :=
  List.map_take.symm

theorem drop_text (ds : Digits) (k : ℕ) : ds.text.drop k = Digits.text (ds.drop k) :=
  List.map_drop.symm

/-- The decimal digits of a number, which have no leading zeros. -/
theorem exists_toDigits (n : ℕ) :
    ∃ ds : Digits, ds.text = Nat.toDigits 10 n ∧ ds.value = n ∧ ds ≠ [] ∧
      (ds.head? = some 0 → ds = [0]) := by
  induction n using Nat.strong_induction_on with
  | h n ih =>
  by_cases hsmall : n < 10
  · refine ⟨[⟨n, hsmall⟩], ?_, ?_, by simp, ?_⟩
    · rw [Nat.toDigits_of_lt_base hsmall]
      rfl
    · simp [value]
    · intro hzero
      rw [Option.some.inj hzero]
  · obtain ⟨ds, htext, hvalue, hne, hhead⟩ := ih (n / 10) (Nat.div_lt_self (by omega) (by norm_num))
    refine ⟨ds ++ [⟨n % 10, Nat.mod_lt _ (by norm_num)⟩], ?_, ?_, by simp, ?_⟩
    · rw [Nat.toDigits_of_base_le (by norm_num) (not_lt.1 hsmall), text_append, htext]
      rfl
    · rw [value_concat, hvalue]
      exact Nat.div_add_mod n 10
    · rw [List.head?_append_of_ne_nil _ hne]
      intro hzero
      rw [hhead hzero] at hvalue
      have hquotient : 0 = n / 10 := hvalue
      omega

theorem length_toDigits {ds : Digits} {n : ℕ} (h : ds.text = Nat.toDigits 10 n) :
    ds.length = Binary64.decimalLength n := by
  rw [← length_text, h, Binary64.decimalLength]

/-- Digits without the zeros behind the last one that is none. -/
theorem exists_trimmed (ds : Digits) :
    ∃ (trimmed : Digits) (k : ℕ), ds = trimmed ++ List.replicate k 0 ∧
      (ds.text.reverse.dropWhile (· = '0')).reverse = trimmed.text := by
  induction ds using List.reverseRecOn with
  | nil => exact ⟨[], 0, rfl, rfl⟩
  | append_singleton ds d ih =>
      obtain ⟨trimmed, k, hsplit, htext⟩ := ih
      rw [text_append, List.reverse_append, text_cons, text_nil, List.reverse_singleton,
        List.singleton_append]
      by_cases hzero : d = 0
      · refine ⟨trimmed, k + 1, ?_, ?_⟩
        · rw [hsplit, hzero, List.append_assoc, List.replicate_succ']
        · rw [List.dropWhile_cons_of_pos (by simpa [digitChar_eq_zero_iff] using hzero), htext]
      · refine ⟨ds ++ [d], 0, by simp, ?_⟩
        rw [List.dropWhile_cons_of_neg (by simpa [digitChar_eq_zero_iff] using hzero)]
        simp

end Digits

/-! ### Integers -/

theorem exists_numeral_intText (n : ℤ) :
    ∃ m : Numeral, m.text = intText n ∧ m.value = .int n ∧
      m.whole.length = Binary64.decimalLength n.natAbs := by
  obtain ⟨ds, htext, hvalue, hne, hhead⟩ := Digits.exists_toDigits n.natAbs
  refine ⟨⟨decide (n < 0), ds, none, none, hne, hhead⟩, ?_, ?_, Digits.length_toDigits htext⟩
  · simp [Numeral.text, Numeral.fractionText, Numeral.exponentText, intText, htext]
  · simp only [Numeral.value, Numeral.isInteger, Option.isNone_none, Bool.and_self, if_true, hvalue,
      decide_eq_true_eq, Number.int.injEq]
    split_ifs <;> omega

/-! ### Decimals -/

/-- A literal with a fraction or an exponent, as a sign and a text, with its decimal. -/
def Spelling (negative : Bool) (text : List Char) (d : Binary64.Decimal) : Prop :=
  ∃ n : Numeral, n.text = (if negative then ['-'] else []) ++ text ∧
    n.value = .float (.ofDecimal negative d.digits d.scale)

theorem Spelling.congr {negative : Bool} {text : List Char} {d d' : Binary64.Decimal}
    (h : Spelling negative text d) (hvalue : d.value = d'.value) : Spelling negative text d' := by
  obtain ⟨n, htext, hn⟩ := h
  exact ⟨n, htext, by rw [hn, Binary64.ofDecimal_congr negative hvalue]⟩

theorem spelling_fraction (negative : Bool) (whole fraction : Digits) (hne : whole ≠ [])
    (hleading : whole.head? = some 0 → whole = [0]) (hfraction : fraction ≠ []) :
    Spelling negative (whole.text ++ '.' :: fraction.text)
      ⟨Digits.value (whole ++ fraction), -fraction.length⟩ := by
  refine ⟨⟨negative, whole, some ⟨fraction, hfraction⟩, none, hne, hleading⟩, ?_, ?_⟩
  · simp [Numeral.text, Numeral.fractionText, Numeral.exponentText]
  · simp [Numeral.value, Numeral.isInteger]

theorem exists_exponent (e : ℤ) :
    ∃ x : Exponent, x.text = 'e' :: Binary64.Layout.exponentText e ∧ x.value = e := by
  obtain ⟨ds, htext, hvalue, hne, -⟩ := Digits.exists_toDigits e.natAbs
  -- An exponent below ten is filled up to two digits.
  obtain ⟨filled, hfilled, hfilledValue, hfilledNe⟩ : ∃ filled : Digits,
      filled.text = (if e.natAbs < 10 then '0' :: ds.text else ds.text) ∧
        filled.value = e.natAbs ∧ filled ≠ [] := by
    split_ifs with hshort
    · refine ⟨[0] ++ ds, rfl, ?_, by simp⟩
      rw [Digits.value_append, hvalue]
      simp [Digits.value]
    · exact ⟨ds, rfl, hvalue, hne⟩
  refine ⟨⟨false, some (if e < 0 then .minus else .plus), filled, hfilledNe⟩, ?_, ?_⟩
  · rw [Exponent.text, hfilled, Binary64.Layout.exponentText, htext]
    by_cases hnegative : e < 0 <;> simp [hnegative, Sign.char]
  · rw [Exponent.value, hfilledValue]
    split_ifs
    · simp only
      omega
    · simp only
      omega

theorem spelling_scientific (negative : Bool) {digits : Digits} (hne : digits ≠ [])
    (hhead : digits.head? ≠ some 0) (e : ℤ) :
    Spelling negative (Binary64.Layout.scientific digits.text e)
      ⟨digits.value, e + 1 - digits.length⟩ := by
  obtain ⟨x, htext, hvalue⟩ := exists_exponent e
  cases digits with
  | nil => exact absurd rfl hne
  | cons d ds =>
      have hleading : [d].head? = some 0 → [d] = [0] := fun h => absurd h hhead
      cases ds with
      | nil =>
          refine ⟨⟨negative, [d], none, some x, by simp, hleading⟩, ?_, ?_⟩
          · simp [Numeral.text, Numeral.fractionText, Numeral.exponentText, htext,
              Binary64.Layout.scientific]
          · simp [Numeral.value, Numeral.isInteger, hvalue]
      | cons d' ds =>
          refine ⟨⟨negative, [d], some ⟨d' :: ds, by simp⟩, some x, by simp, hleading⟩, ?_, ?_⟩
          · simp [Numeral.text, Numeral.fractionText, Numeral.exponentText, htext,
              Binary64.Layout.scientific]
          · have hscale : e + 1 - (ds.length + 1 + 1) = e - (ds.length + 1) := by ring
            simp [Numeral.value, Numeral.isInteger, hvalue, hscale]

section
variable (negative : Bool) {digits : Digits} (hne : digits ≠ [])
include hne

/-- Digits behind the point only, with zeros before them. -/
theorem spelling_behind (k : ℕ) :
    Spelling negative ('0' :: '.' :: (List.replicate k '0' ++ digits.text))
      ⟨digits.value, -k - digits.length⟩ := by
  have hspelling := spelling_fraction negative [0] (List.replicate k 0 ++ digits) (by simp)
    (by simp) (by simp [hne])
  rw [Digits.text_append, Digits.text_replicate_zero] at hspelling
  refine hspelling.congr ?_
  have hvalue : Digits.value ([0] ++ (List.replicate k 0 ++ digits)) = digits.value := by
    rw [Digits.value_append, Digits.value_append, Digits.value_replicate_zero]
    simp [Digits.value]
  have hscale : (-(List.replicate k (0 : Fin 10) ++ digits).length : ℤ) = -k - digits.length := by
    rw [List.length_append, List.length_replicate]
    omega
  rw [hvalue, hscale]

variable (hhead : digits.head? ≠ some 0)
include hhead

/-- Digits before the point only, with zeros behind them. -/
theorem spelling_before (k : ℕ) :
    Spelling negative (digits.text ++ List.replicate k '0' ++ ['.', '0']) ⟨digits.value, k⟩ := by
  have hleading : (digits ++ List.replicate k 0).head? ≠ some 0 := by
    rwa [List.head?_append_of_ne_nil _ hne]
  have hspelling := spelling_fraction negative (digits ++ List.replicate k 0) [0] (by simp [hne])
    (absurd · hleading) (by simp)
  rw [Digits.text_append, Digits.text_replicate_zero] at hspelling
  refine hspelling.congr ?_
  have hvalue : Digits.value (digits ++ List.replicate k 0 ++ [0]) =
      digits.value * 10 ^ k * 10 := by
    rw [Digits.value_append, Digits.value_append, Digits.value_replicate_zero,
      List.length_replicate]
    rfl
  simp only [Binary64.Decimal.value, hvalue, List.length_singleton, Nat.cast_one, zpow_natCast]
  rw [zpow_neg, zpow_one]
  push_cast
  ring

theorem spelling_positional (point : ℤ) :
    Spelling negative (Binary64.Layout.positional digits.text point)
      ⟨digits.value, point - digits.length⟩ := by
  rw [Binary64.Layout.positional, Digits.length_text]
  split_ifs with hsmall hlarge
  · have hscale : point - digits.length = -(-point).toNat - digits.length := by omega
    rw [hscale]
    exact spelling_behind negative hne _
  · have hscale : point - digits.length = (point.toNat - digits.length : ℕ) := by omega
    rw [hscale]
    exact spelling_before negative hne hhead _
  · have hwhole : digits.take point.toNat ≠ [] := by
      simp only [ne_eq, List.take_eq_nil_iff, not_or]
      exact ⟨by omega, hne⟩
    have hleading : (digits.take point.toNat).head? ≠ some 0 := by
      rwa [List.head?_take, if_neg (by omega)]
    have hfraction : digits.drop point.toNat ≠ [] := by
      simp only [ne_eq, List.drop_eq_nil_iff]
      omega
    have hspelling := spelling_fraction negative _ _ hwhole (absurd · hleading) hfraction
    have hscale : (-(digits.drop point.toNat).length : ℤ) = point - digits.length := by
      rw [List.length_drop]
      omega
    rw [List.take_append_drop, hscale] at hspelling
    rwa [Digits.take_text, Digits.drop_text]

end

theorem spelling_decimalText (layout : Binary64.Layout) (negative : Bool) {d : Binary64.Decimal}
    (hdigits : d.digits ≠ 0) : Spelling negative (layout.decimalText d) d := by
  obtain ⟨ds, htext, hvalue, -, hleading⟩ := Digits.exists_toDigits d.digits
  obtain ⟨trimmed, k, hsplit, htrimmed⟩ := ds.exists_trimmed
  have hdigitsValue : d.digits = trimmed.value * 10 ^ k := by
    rw [← hvalue, hsplit, Digits.value_append, Digits.value_replicate_zero, List.length_replicate,
      Nat.add_zero]
  have hne : trimmed ≠ [] := by
    rintro rfl
    exact hdigits (by simpa [Digits.value] using hdigitsValue)
  have hhead : trimmed.head? ≠ some 0 := by
    intro hzero
    have hds : ds = [0] := by
      refine hleading ?_
      rw [hsplit, List.head?_append_of_ne_nil _ hne, hzero]
    rw [hds] at hvalue
    exact hdigits hvalue.symm
  have hlength : (Nat.toDigits 10 d.digits).length = trimmed.length + k := by
    rw [← htext, Digits.length_text, hsplit, List.length_append, List.length_replicate]
  -- The zeros that are dropped and the point make up for each other.
  have hsame (point : ℤ) (hpoint : point = trimmed.length + k + d.scale) :
      Binary64.Decimal.value ⟨trimmed.value, point - trimmed.length⟩ = d.value := by
    have hscale : point - trimmed.length = k + d.scale := by omega
    simp only [Binary64.Decimal.value, hscale, hdigitsValue]
    rw [zpow_add₀ (by norm_num), zpow_natCast]
    push_cast
    ring
  simp only [Binary64.Layout.decimalText, hlength]
  rw [← htext, htrimmed]
  split_ifs
  · exact (spelling_positional negative hne hhead _).congr (hsame _ (by push_cast; ring))
  · refine (spelling_scientific negative hne hhead _).congr ?_
    rw [sub_add_cancel]
    exact hsame _ (by push_cast; ring)

/-! ### Numbers -/

theorem exists_numeral_float {x : Binary64} (hfinite : x.isFinite = true) :
    ∃ n : Numeral, n.text = numberLayout.text x ∧ n.value = .float x := by
  have hnan : x.isNaN = false := by
    simp only [Binary64.isFinite, Binary64.isNaN, decide_eq_true_eq, decide_eq_false_iff_not] at *
    omega
  simp only [Binary64.Layout.text, hnan, hfinite, Bool.not_true, Bool.false_eq_true, if_false]
  by_cases hzero : x.magnitude = 0
  · obtain ⟨n, htext, hvalue⟩ := spelling_fraction x.isNegative [0] [0] (by simp) (by simp) (by simp)
    refine ⟨n, by rw [htext, if_pos hzero]; rfl, ?_⟩
    have hdigits : Digits.value ([0] ++ [0]) = 0 := rfl
    rw [hvalue, hdigits, Binary64.ofDecimal, if_pos (.inl rfl)]
    conv_rhs => rw [← x.ofMagnitude_magnitude, hzero]
  · have hread := Binary64.readsBack_shortest hfinite
    have hdigits : x.shortest.digits ≠ 0 := by
      intro hdigits
      rw [Binary64.Decimal.ReadsBack, hdigits, Binary64.ofDecimal, if_pos (.inl rfl)] at hread
      rw [← hread] at hzero
      exact hzero (Binary64.magnitude_ofMagnitude _ (by decide))
    obtain ⟨n, htext, hvalue⟩ := spelling_decimalText numberLayout x.isNegative hdigits
    exact ⟨n, by rw [htext, if_neg hzero], by rw [hvalue, hread]⟩

theorem isInteger_of_float {n : Numeral} {x : Binary64} (h : n.value = .float x) :
    n.isInteger = false := by
  by_contra hinteger
  rw [Bool.not_eq_false] at hinteger
  rw [Numeral.value, if_pos hinteger] at h
  cases h

end Gltf.Json.Syntax
