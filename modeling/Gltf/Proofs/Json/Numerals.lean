import Gltf.Proofs.Json.LongIntegers
import Gltf.Proofs.Json.Syntax
import Mathlib

/-!
Number literals and the grammar. The reader of literals takes the longest one at the head of a text,
so it finds a literal of the grammar where the text behind does not go on the number.
-/

namespace Gltf.Json.Syntax

/-! ### Digits -/

theorem isDigit_digitChar : ∀ d : Fin 10, isDigit (Nat.digitChar d) = true := by decide

theorem toNat_digitChar : ∀ d : Fin 10, (Nat.digitChar d).toNat - 48 = d := by decide

theorem digitChar_eq_zero_iff : ∀ d : Fin 10, Nat.digitChar d = '0' ↔ d = 0 := by decide

theorem exists_digitChar {c : Char} (h : isDigit c = true) : ∃ d : Fin 10, Nat.digitChar d = c := by
  simp only [isDigit, Bool.and_eq_true, decide_eq_true_eq] at h
  have hleast : 48 ≤ c.toNat := h.1
  have hgreatest : c.toNat ≤ 57 := h.2
  refine ⟨⟨c.toNat - 48, by omega⟩, ?_⟩
  apply Char.toNat_inj.1
  show (Nat.digitChar (c.toNat - 48)).toNat = c.toNat
  rw [Nat.toNat_digitChar_of_lt_ten (by omega)]
  omega

namespace Digits

@[simp] theorem text_nil : text [] = [] := rfl

@[simp] theorem text_cons (d : Fin 10) (ds : Digits) :
    text (d :: ds) = Nat.digitChar d :: text ds := rfl

@[simp] theorem text_append (ds ds' : Digits) : text (ds ++ ds') = text ds ++ text ds' :=
  List.map_append

@[simp] theorem length_text (ds : Digits) : (text ds).length = ds.length := List.length_map _

theorem isDigit_of_mem_text {ds : Digits} : ∀ c ∈ ds.text, isDigit c = true := by
  intro c hc
  obtain ⟨d, -, rfl⟩ := List.mem_map.1 hc
  exact isDigit_digitChar d

theorem value_concat (ds : Digits) (d : Fin 10) : value (ds ++ [d]) = 10 * ds.value + d := by
  simp [value, Nat.ofDigits_cons, Nat.add_comm]

theorem digitsValue_text (ds : Digits) : digitsValue ds.text = ds.value := by
  induction ds using List.reverseRecOn with
  | nil => rfl
  | append_singleton ds d ih =>
      rw [value_concat, text_append, digitsValue, List.foldl_append, ← digitsValue, ih]
      simp only [text_cons, text_nil, List.foldl_cons, List.foldl_nil, toNat_digitChar]

theorem exists_text_eq {cs : List Char} (h : ∀ c ∈ cs, isDigit c = true) :
    ∃ ds : Digits, ds.text = cs := by
  induction cs with
  | nil => exact ⟨[], rfl⟩
  | cons c cs ih =>
      obtain ⟨ds, rfl⟩ := ih fun c hc => h c (List.mem_cons_of_mem _ hc)
      obtain ⟨d, rfl⟩ := exists_digitChar (h c List.mem_cons_self)
      exact ⟨d :: ds, rfl⟩

section
variable {rest : List Char} (hrest : rest.takeWhile isDigit = [])
include hrest

theorem takeWhile_text_append (ds : Digits) : (ds.text ++ rest).takeWhile isDigit = ds.text := by
  rw [List.takeWhile_append_of_pos isDigit_of_mem_text, hrest, List.append_nil]

theorem dropWhile_text_append (ds : Digits) : (ds.text ++ rest).dropWhile isDigit = rest := by
  rw [List.dropWhile_append_of_pos isDigit_of_mem_text]
  have hsplit := List.takeWhile_append_dropWhile (p := isDigit) (l := rest)
  rwa [hrest, List.nil_append] at hsplit

end

/-- The digits at the head of a text. -/
theorem exists_run (text : List Char) :
    ∃ ds : Digits, text.takeWhile isDigit = ds.text ∧
      text = ds.text ++ text.dropWhile isDigit := by
  have hdigits : ∀ c ∈ text.takeWhile isDigit, isDigit c = true := fun _ => List.mem_takeWhile_imp
  obtain ⟨ds, hds⟩ := exists_text_eq hdigits
  exact ⟨ds, hds.symm, by rw [hds, List.takeWhile_append_dropWhile]⟩

theorem text_ne_nil {ds : Digits} (h : ds ≠ []) : ds.text ≠ [] := by
  rwa [text, ne_eq, List.map_eq_nil_iff]

end Digits

/-! ### Parts of a literal -/

theorem readWhole_text {ds : Digits} (nonempty : ds ≠ []) (leading : ds.head? = some 0 → ds = [0])
    {rest : List Char} (hrest : rest.takeWhile isDigit = []) :
    readWhole (ds.text ++ rest) = some (ds.text, rest) := by
  cases ds with
  | nil => exact absurd rfl nonempty
  | cons d ds =>
      rw [Digits.text_cons, List.cons_append, readWhole]
      by_cases hzero : d = 0
      · subst hzero
        obtain rfl : ds = [] := by simpa using leading rfl
        rfl
      · have hchar : Nat.digitChar d ≠ '0' := fun h => hzero ((digitChar_eq_zero_iff d).1 h)
        rw [if_neg hchar, if_pos (isDigit_digitChar d), Digits.takeWhile_text_append hrest,
          Digits.dropWhile_text_append hrest]

theorem exists_of_readWhole {text whole rest : List Char}
    (h : readWhole text = some (whole, rest)) :
    ∃ ds : Digits, ds ≠ [] ∧ (ds.head? = some 0 → ds = [0]) ∧ whole = ds.text ∧
      text = ds.text ++ rest := by
  cases text with
  | nil => cases h
  | cons c text =>
      rw [readWhole] at h
      split_ifs at h with hzero hdigit
      · cases h
        subst hzero
        exact ⟨[0], by simp, by simp, rfl, rfl⟩
      · cases h
        obtain ⟨ds, hrun, hsplit⟩ := Digits.exists_run text
        obtain ⟨d, rfl⟩ := exists_digitChar hdigit
        have hd : d ≠ 0 := fun heq => hzero ((digitChar_eq_zero_iff d).2 heq)
        refine ⟨d :: ds, by simp, by simp [hd], by rw [hrun]; rfl, ?_⟩
        rw [Digits.text_cons, List.cons_append, ← hsplit]

theorem readFraction_point {ds : Digits} (nonempty : ds ≠ []) {rest : List Char}
    (hrest : rest.takeWhile isDigit = []) :
    readFraction ('.' :: (ds.text ++ rest)) = (some ds.text, rest) := by
  have hrun : ds.text.isEmpty = false := by
    simpa using Digits.text_ne_nil nonempty
  rw [readFraction, Digits.takeWhile_text_append hrest, Digits.dropWhile_text_append hrest, hrun]
  rfl

theorem exists_of_readFraction (text : List Char) :
    ∃ fraction : Option {ds : Digits // ds ≠ []},
      (readFraction text).1 = fraction.map (·.val.text) ∧
        text = (match fraction with
          | some ds => '.' :: ds.val.text
          | none => []) ++ (readFraction text).2 := by
  cases hfraction : (readFraction text).1 with
  | none => exact ⟨none, rfl, (readFraction_of_none hfraction).symm⟩
  | some digits =>
      obtain ⟨c, more, rfl, hdigit⟩ := readFraction_fst_isSome_iff.1 (by rw [hfraction]; rfl)
      obtain ⟨ds, hrun, hsplit⟩ := Digits.exists_run (c :: more)
      have hnonempty : ((c :: more).takeWhile isDigit).isEmpty = false := by
        rw [isEmpty_takeWhile_isDigit, hdigit]
        rfl
      rw [readFraction, hnonempty] at hfraction ⊢
      have hds : ds ≠ [] := by
        rintro rfl
        rw [hrun] at hnonempty
        cases hnonempty
      refine ⟨some ⟨ds, hds⟩, ?_, ?_⟩
      · rw [← hfraction]
        exact congrArg some hrun
      · exact congrArg (List.cons '.') hsplit

theorem readExponent_of_none {text : List Char} (h : (readExponent text).1 = none) :
    (readExponent text).2 = text := by
  cases text with
  | nil => rfl
  | cons c text =>
      rw [readExponent] at h ⊢
      dsimp only at h ⊢
      split_ifs at h ⊢
      rfl

theorem readSign_of_digit {c : Char} {rest : List Char} (h : isDigit c = true) :
    readSign (c :: rest) = (false, c :: rest) := by
  have hminus : c ≠ '-' := by
    rintro rfl
    cases h
  have hplus : c ≠ '+' := by
    rintro rfl
    cases h
  simp [readSign, hminus, hplus]

/-- The sign of an exponent, before its digits. -/
theorem readSign_text (sign : Option Sign) {ds : Digits} (nonempty : ds ≠ []) (rest : List Char) :
    readSign ((sign.map Sign.char).toList ++ (ds.text ++ rest)) =
      (match sign with
        | some .minus => true
        | _ => false, ds.text ++ rest) := by
  cases ds with
  | nil => exact absurd rfl nonempty
  | cons d ds =>
      cases sign with
      | none => exact readSign_of_digit (isDigit_digitChar d)
      | some sign => cases sign <;> rfl

theorem readExponent_text (e : Exponent) {rest : List Char}
    (hrest : rest.takeWhile isDigit = []) :
    readExponent (e.text ++ rest) = (some e.value, rest) := by
  obtain ⟨upper, sign, ds, nonempty⟩ := e
  have hmark : (if upper then 'E' else 'e') = 'e' ∨ (if upper then 'E' else 'e') = 'E' := by
    cases upper
    · exact .inl rfl
    · exact .inr rfl
  have hrun : ds.text.isEmpty = false := by
    simpa using Digits.text_ne_nil nonempty
  rw [Exponent.text, List.cons_append, List.append_assoc, readExponent,
    readSign_text sign nonempty]
  simp only [Digits.takeWhile_text_append hrest, Digits.dropWhile_text_append hrest, hrun,
    Digits.digitsValue_text]
  rw [if_pos ⟨hmark, rfl⟩, Exponent.value]
  rcases sign with _ | _ | _ <;> rfl

theorem exists_of_readSign (text : List Char) :
    ∃ sign : Option Sign, text = (sign.map Sign.char).toList ++ (readSign text).2 ∧
      (readSign text).1 = (match sign with
        | some .minus => true
        | _ => false) := by
  rw [readSign.eq_def]
  split
  · exact ⟨some .minus, rfl, rfl⟩
  · exact ⟨some .plus, rfl, rfl⟩
  · exact ⟨none, rfl, rfl⟩

theorem exists_of_readExponent (text : List Char) :
    ∃ exponent : Option Exponent, (readExponent text).1 = exponent.map Exponent.value ∧
      text = (match exponent with
        | some e => e.text
        | none => []) ++ (readExponent text).2 := by
  cases hexponent : (readExponent text).1 with
  | none => exact ⟨none, rfl, (readExponent_of_none hexponent).symm⟩
  | some value =>
      cases text with
      | nil => cases hexponent
      | cons c text =>
          obtain ⟨sign, htext, hsign⟩ := exists_of_readSign text
          obtain ⟨ds, hrun, hsplit⟩ := Digits.exists_run (readSign text).2
          rw [readExponent] at hexponent ⊢
          dsimp only at hexponent ⊢
          have hmark : (c = 'e' ∨ c = 'E') ∧
              (!((readSign text).2.takeWhile isDigit).isEmpty) = true := by
            by_contra hother
            rw [if_neg hother] at hexponent
            cases hexponent
          rw [if_pos hmark] at hexponent ⊢
          have hnonempty : ds ≠ [] := by
            rintro rfl
            rw [hrun] at hmark
            simp at hmark
          have hc : (if c = 'E' then 'E' else 'e') = c := by
            rcases hmark.1 with rfl | rfl <;> rfl
          refine ⟨some ⟨decide (c = 'E'), sign, ds, hnonempty⟩, ?_, ?_⟩
          · rw [← hexponent, hrun, hsign, Digits.digitsValue_text]
            rcases sign with _ | _ | _ <;> rfl
          · show c :: text = Exponent.text _ ++ (readSign text).2.dropWhile isDigit
            simp only [Exponent.text, decide_eq_true_eq, hc]
            rw [List.cons_append, List.append_assoc, ← hsplit, ← htext]

/-! ### Literals -/

namespace Numeral

/-- What the reader makes of a literal. -/
def literal (n : Numeral) : Literal :=
  ⟨n.negative, n.whole.text, n.fraction.map (·.val.text), n.exponent.map Exponent.value⟩

theorem toNumber_literal_of_le {n : Numeral}
    (h : n.isInteger = true → n.whole.length ≤ digitLimit) : n.literal.toNumber = .ok n.value := by
  obtain ⟨negative, whole, fraction, exponent, nonempty, leading⟩ := n
  rcases fraction with _ | ⟨fraction, _⟩ <;> rcases exponent with _ | exponent
  · have hshort : ¬digitLimit < whole.text.length := by
      rw [Digits.length_text]
      exact not_lt.2 (h rfl)
    simp only [literal, Option.map_none, Literal.toNumber, if_neg hshort, Digits.digitsValue_text]
    rfl
  all_goals
    simp only [literal, Option.map_some, Option.map_none, Literal.toNumber, Option.getD_some,
      Option.getD_none, ← Digits.text_append, ← Digits.text_nil, Digits.digitsValue_text,
      Digits.length_text]
    rfl

/-- What is read as a number is the number of the literal. -/
theorem eq_value_of_toNumber {n : Numeral} {v : Number} (h : n.literal.toNumber = .ok v) :
    v = n.value := by
  by_cases hlong : n.isInteger = true → n.whole.length ≤ digitLimit
  · rw [toNumber_literal_of_le hlong] at h
    exact (Except.ok.inj h).symm
  · rw [Classical.not_imp, not_le] at hlong
    obtain ⟨hinteger, hlong⟩ := hlong
    simp only [isInteger, Bool.and_eq_true, Option.isNone_iff_eq_none] at hinteger
    have herror : n.literal.toNumber = .error .integerTooLong := by
      refine toNumber_eq_error_iff.2 ⟨rfl, ?_, ?_, ?_⟩
      · simp [literal, hinteger.1]
      · simp [literal, hinteger.2]
      · simpa [literal] using hlong
    rw [herror] at h
    cases h

theorem takeWhile_exponentText_append (n : Numeral) {rest : List Char} (hends : ¬GoesOn rest) :
    (n.exponentText ++ rest).takeWhile isDigit = [] := by
  rw [exponentText]
  split
  · rename_i e he
    obtain ⟨upper, sign, ds, nonempty⟩ := e
    cases upper <;> rfl
  · exact (not_goesOn_iff.1 hends).1

theorem readExponent_exponentText (n : Numeral) {rest : List Char} (hends : ¬GoesOn rest) :
    readExponent (n.exponentText ++ rest) = (n.exponent.map Exponent.value, rest) := by
  obtain ⟨hdigits, -, hexponent⟩ := not_goesOn_iff.1 hends
  rw [exponentText]
  cases n.exponent with
  | some e => exact readExponent_text e hdigits
  | none => exact Prod.ext hexponent (readExponent_of_none hexponent)

theorem readFraction_fractionText (n : Numeral) {rest : List Char} (hends : ¬GoesOn rest) :
    readFraction (n.fractionText ++ (n.exponentText ++ rest)) =
      (n.fraction.map (·.val.text), n.exponentText ++ rest) := by
  have hdigits := n.takeWhile_exponentText_append hends
  rw [fractionText]
  cases n.fraction with
  | some ds => exact readFraction_point ds.property hdigits
  | none =>
      have hfraction : (readFraction (n.exponentText ++ rest)).1 = none := by
        rw [exponentText]
        cases n.exponent with
        | some e =>
            obtain ⟨upper, sign, ds, nonempty⟩ := e
            cases upper <;> rfl
        | none => exact (not_goesOn_iff.1 hends).2.1
      exact Prod.ext hfraction (readFraction_of_none hfraction)

theorem takeWhile_fractionText_append (n : Numeral) {rest : List Char} (hends : ¬GoesOn rest) :
    (n.fractionText ++ (n.exponentText ++ rest)).takeWhile isDigit = [] := by
  rw [fractionText]
  split
  · rfl
  · exact n.takeWhile_exponentText_append hends

theorem readUnsigned_text (n : Numeral) {rest : List Char} (hends : ¬GoesOn rest) :
    readUnsigned n.negative (n.whole.text ++ (n.fractionText ++ n.exponentText) ++ rest) =
      some (n.literal, rest) := by
  rw [readUnsigned, List.append_assoc, List.append_assoc,
    readWhole_text n.nonempty n.leading (n.takeWhile_fractionText_append hends), Option.map_some]
  simp only [n.readFraction_fractionText hends, n.readExponent_exponentText hends]
  rfl

/-- The first character of a literal without its sign. -/
theorem exists_whole_text (n : Numeral) :
    ∃ (d : Fin 10) (ds : Digits), n.whole.text = Nat.digitChar d :: ds.text := by
  cases hwhole : n.whole with
  | nil => exact absurd hwhole n.nonempty
  | cons d ds => exact ⟨d, ds, rfl⟩

theorem readLiteral_text (n : Numeral) {rest : List Char} (hends : ¬GoesOn rest) :
    readLiteral (n.text ++ rest) = some (n.literal, rest) := by
  have hunsigned := n.readUnsigned_text hends
  rw [text]
  cases hnegative : n.negative with
  | true =>
      rw [hnegative] at hunsigned
      simp only [if_true, List.cons_append, List.nil_append]
      rw [readLiteral_minus, hunsigned]
  | false =>
      obtain ⟨d, ds, hwhole⟩ := n.exists_whole_text
      have hminus : Nat.digitChar d ≠ '-' := by
        intro heq
        have hdigit := isDigit_digitChar d
        rw [heq] at hdigit
        cases hdigit
      rw [hnegative, hwhole] at hunsigned
      simp only [Bool.false_eq_true, if_false, List.nil_append]
      rw [hwhole, List.cons_append, List.cons_append, readLiteral_unsigned hminus]
      exact hunsigned

theorem exists_of_readUnsigned {negative : Bool} {text rest : List Char} {l : Literal}
    (h : readUnsigned negative text = some (l, rest)) :
    ∃ n : Numeral, n.negative = negative ∧ l = n.literal ∧
      text = n.whole.text ++ (n.fractionText ++ n.exponentText) ++ rest := by
  rw [readUnsigned, Option.map_eq_some_iff] at h
  obtain ⟨⟨whole, behind⟩, hwhole, heq⟩ := h
  obtain ⟨rfl, rfl⟩ := Prod.mk.inj heq
  obtain ⟨ds, nonempty, leading, rfl, rfl⟩ := exists_of_readWhole hwhole
  obtain ⟨fraction, hfraction, hbehind⟩ := exists_of_readFraction behind
  obtain ⟨exponent, hexponent, hrest⟩ := exists_of_readExponent (readFraction behind).2
  refine ⟨⟨negative, ds, fraction, exponent, nonempty, leading⟩, rfl, ?_, ?_⟩
  · rw [literal, hfraction, hexponent]
  · rw [List.append_assoc, List.append_assoc]
    refine congrArg _ (hbehind.trans ?_)
    exact congrArg _ hrest

theorem exists_of_readLiteral {text rest : List Char} {l : Literal}
    (h : readLiteral text = some (l, rest)) :
    ∃ n : Numeral, l = n.literal ∧ text = n.text ++ rest := by
  cases text with
  | nil => simp [readLiteral, readWhole] at h
  | cons c text =>
      by_cases hminus : c = '-'
      · subst hminus
        rw [readLiteral_minus] at h
        obtain ⟨n, hnegative, rfl, rfl⟩ := exists_of_readUnsigned h
        exact ⟨n, rfl, by rw [Numeral.text, hnegative]; rfl⟩
      · rw [readLiteral_unsigned hminus] at h
        obtain ⟨n, hnegative, rfl, heq⟩ := exists_of_readUnsigned h
        exact ⟨n, rfl, by rw [heq, Numeral.text, hnegative]; rfl⟩

theorem readNumber_text {n : Numeral} (hlong : n.isInteger = true → n.whole.length ≤ digitLimit)
    {rest : List Char} (hends : ¬GoesOn rest) :
    readNumber (n.text ++ rest) = .ok (.number n.value, rest) := by
  rw [readNumber, n.readLiteral_text hends]
  simp only [toNumber_literal_of_le hlong]

theorem exists_of_readNumber {text rest : List Char} {v : Json}
    (h : readNumber text = .ok (v, rest)) :
    ∃ n : Numeral, v = .number n.value ∧ text = n.text ++ rest := by
  rw [readNumber] at h
  split at h
  · cases h
  · rename_i l behind hliteral
    obtain ⟨n, rfl, rfl⟩ := exists_of_readLiteral hliteral
    split at h
    · rename_i number hnumber
      cases h
      exact ⟨n, by rw [eq_value_of_toNumber hnumber], rfl⟩
    · cases h

end Numeral

end Gltf.Json.Syntax
