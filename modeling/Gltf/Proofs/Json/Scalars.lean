import Gltf.Json.Parser
import Mathlib

/-!
Strings, numbers and words with blanks behind the text. A reader that succeeds on a text succeeds in
the same way when blanks follow, and leaves those blanks behind what it left before.
-/

namespace Gltf.Json

/-- Characters that JSON passes over. -/
def Blanks (ys : List Char) : Prop := ∀ c ∈ ys, isSpace c = true

/-- Whatever `p` reads, `q` reads with `ys` behind the text, and leaves `ys` as well. -/
def ReadsBefore {α : Type} (ys : List Char) (p q : Reader α) : Prop :=
  ∀ text v rest, p text = .ok (v, rest) → q (text ++ ys) = .ok (v, rest ++ ys)

section
variable {ys : List Char}

theorem Blanks.isDigit_eq_false (hys : Blanks ys) : ∀ c ∈ ys, isDigit c = false := by
  intro c hc
  have hspace := hys c hc
  simp only [isSpace, Bool.or_eq_true, beq_iff_eq] at hspace
  rcases hspace with ((rfl | rfl) | rfl) | rfl <;> rfl

theorem skipSpace_append {text : List Char} (h : skipSpace text ≠ []) :
    skipSpace (text ++ ys) = skipSpace text ++ ys := by
  rw [skipSpace, List.dropWhile_append, if_neg]
  · rfl
  · simpa [skipSpace] using h

theorem skipSpace_append_eq_nil (hys : Blanks ys) {text : List Char} (h : skipSpace text = []) :
    skipSpace (text ++ ys) = [] := by
  rw [skipSpace] at h
  rw [skipSpace, List.dropWhile_append, h, List.isEmpty_nil, if_pos rfl,
    List.dropWhile_eq_nil_iff.2 hys]

theorem takeWhile_isDigit_append (hys : Blanks ys) (text : List Char) :
    (text ++ ys).takeWhile isDigit = text.takeWhile isDigit := by
  induction text with
  | nil =>
      cases ys with
      | nil => rfl
      | cons y ys => simp [hys.isDigit_eq_false y List.mem_cons_self]
  | cons c text ih =>
      rw [List.cons_append, List.takeWhile_cons, List.takeWhile_cons, ih]

theorem dropWhile_isDigit_append (hys : Blanks ys) (text : List Char) :
    (text ++ ys).dropWhile isDigit = text.dropWhile isDigit ++ ys := by
  induction text with
  | nil =>
      cases ys with
      | nil => rfl
      | cons y ys => simp [hys.isDigit_eq_false y List.mem_cons_self]
  | cons c text ih =>
      rw [List.cons_append, List.dropWhile_cons, List.dropWhile_cons, ih]
      split <;> rfl

/-! ### Strings -/

theorem hexUnit?_append {text : List Char} {n : Nat} (h : hexUnit? text = some n) :
    hexUnit? (text ++ ys) = some n := by
  match text, h with
  | a :: b :: c :: d :: e :: rest, h => exact h

theorem unicodeUnit_eq_ok_iff {text : List Char} {n : Nat} :
    unicodeUnit text = .ok n ↔ hexUnit? text = some n := by
  unfold unicodeUnit
  split <;> simp_all

theorem hexUnit?_eq_some {text : List Char} {n : Nat} (h : hexUnit? text = some n) :
    ∃ a b c d e rest, text = a :: b :: c :: d :: e :: rest := by
  match text, h with
  | a :: b :: c :: d :: e :: rest, _ => exact ⟨a, b, c, d, e, rest, rfl⟩

theorem lowSurrogate?_append (hys : Blanks ys) {text : List Char} {found : Option Nat}
    (h : lowSurrogate? text = .ok found)
    (hlong : ∀ digits, text = '\\' :: 'u' :: digits → 4 < digits.length) :
    lowSurrogate? (text ++ ys) = .ok found := by
  have hfirst (c : Char) (hc : c = '\\' ∨ c = 'u') : ys.head? ≠ some c := by
    intro hhead
    have hspace := hys c (List.mem_of_mem_head? hhead)
    rcases hc with rfl | rfl <;> exact absurd hspace (by decide)
  unfold lowSurrogate? at h
  split at h
  · rename_i digits
    have hdigits := hlong digits rfl
    rw [if_neg (by simp; omega)] at h
    cases hunit : unicodeUnit digits with
    | error failure => simp [hunit, bind, Except.bind] at h
    | ok n =>
        have happend : unicodeUnit (digits ++ ys) = .ok n :=
          unicodeUnit_eq_ok_iff.2 (hexUnit?_append (unicodeUnit_eq_ok_iff.1 hunit))
        simp only [List.cons_append, lowSurrogate?, happend]
        rw [if_neg (by simp; omega)]
        simpa [hunit] using h
  · rename_i hother
    cases h
    -- What begins no escape begins none with blanks behind it: neither of its characters is blank.
    unfold lowSurrogate?
    split
    · rename_i digits heq
      match text, hother, heq with
      | [], _, heq =>
          rw [List.nil_append] at heq
          exact absurd (by rw [heq]; rfl) (hfirst '\\' (.inl rfl))
      | [c], _, heq =>
          rw [List.cons_append, List.nil_append, List.cons.injEq] at heq
          exact absurd (by rw [heq.2]; rfl) (hfirst 'u' (.inr rfl))
      | c :: e :: rest, hother, heq =>
          simp only [List.cons_append, List.cons.injEq] at heq
          obtain ⟨rfl, rfl, -⟩ := heq
          exact absurd rfl (hother rest)
    · rfl

theorem readString_short_escape {start done digits : List Char} {a b c d : Char}
    {r : List Char × List Char} (h : digits.length ≤ 4) :
    readString start 5 done ('u' :: a :: b :: c :: d :: '\\' :: 'u' :: digits) ≠ .ok r := by
  have hunit : hexUnit? digits = none := by
    rw [Option.eq_none_iff_forall_ne_some]
    intro n hn
    obtain ⟨_, _, _, _, _, _, rfl⟩ := hexUnit?_eq_some hn
    simp only [List.length_cons] at h
    omega
  simp [readString, unicodeUnit, hunit]

section
variable {start done text : List Char} {n : Nat} (hunit : hexUnit? text = some n)
include hunit

theorem readString_unit (hhigh : isHighSurrogate n = false) :
    readString start 0 done ('\\' :: 'u' :: text) =
      readString start 5 (unitChar n :: done) ('u' :: text) := by
  simp [readString, unicodeUnit, hunit, hhigh]

theorem readString_unit_alone (hhigh : isHighSurrogate n = true)
    (hlow : lowSurrogate? (text.drop 4) = .ok none) :
    readString start 0 done ('\\' :: 'u' :: text) =
      readString start 5 (unitChar n :: done) ('u' :: text) := by
  simp [readString, unicodeUnit, hunit, hhigh, hlow]

theorem readString_unit_pair {low : Nat} (hhigh : isHighSurrogate n = true)
    (hlow : lowSurrogate? (text.drop 4) = .ok (some low)) :
    readString start 0 done ('\\' :: 'u' :: text) =
      readString start 11 (pairChar n low :: done) ('u' :: text) := by
  simp [readString, unicodeUnit, hunit, hhigh, hlow]

theorem readString_unit_error {failure : Failure} (hhigh : isHighSurrogate n = true)
    (hlow : lowSurrogate? (text.drop 4) = .error failure) :
    readString start 0 done ('\\' :: 'u' :: text) = .error failure := by
  simp [readString, unicodeUnit, hunit, hhigh, hlow]

end

/-- A second escape too short for a code unit is passed over behind a high surrogate, but it is a
fault when the string reaches it. -/
theorem length_of_lowSurrogate? {start done digits text : List Char} {n : Nat}
    {found : Option Nat} {r : List Char × List Char} (hunit : hexUnit? text = some n)
    (hhigh : isHighSurrogate n = true) (hfound : lowSurrogate? (text.drop 4) = .ok found)
    (h : readString start 0 done ('\\' :: 'u' :: text) = .ok r)
    (hdigits : text.drop 4 = '\\' :: 'u' :: digits) : 4 < digits.length := by
  by_contra hshort
  have hnone : found = none := by
    rw [hdigits, lowSurrogate?, if_pos (by simp; omega)] at hfound
    exact (Except.ok.inj hfound).symm
  subst hnone
  rw [readString_unit_alone hunit hhigh hfound] at h
  obtain ⟨a, b, c, d, e, more, rfl⟩ := hexUnit?_eq_some hunit
  simp only [List.drop_succ_cons, List.drop_zero, List.cons.injEq] at hdigits
  obtain ⟨rfl, rfl⟩ := hdigits
  exact readString_short_escape (by omega) h

/-- The case of an escape by a code unit, given how the text behind the backslash is read. -/
theorem readString_append_unit (hys : Blanks ys) {start start' done text s rest : List Char}
    (ih : ∀ {skip : Nat} {done : List Char},
      readString start skip done ('u' :: text) = .ok (s, rest) →
        readString start' skip done ('u' :: text ++ ys) = .ok (s, rest ++ ys))
    (h : readString start 0 done ('\\' :: 'u' :: text) = .ok (s, rest)) :
    readString start' 0 done ('\\' :: 'u' :: text ++ ys) = .ok (s, rest ++ ys) := by
  rw [List.cons_append, List.cons_append]
  cases hunit : hexUnit? text with
  | none => simp [readString, unicodeUnit, hunit] at h
  | some n =>
      have hunit' : hexUnit? (text ++ ys) = some n := hexUnit?_append hunit
      have hlength : 4 ≤ text.length := by
        obtain ⟨a, b, c, d, e, more, rfl⟩ := hexUnit?_eq_some hunit
        simp
      cases hhigh : isHighSurrogate n with
      | false =>
          rw [readString_unit hunit hhigh] at h
          rw [readString_unit hunit' hhigh]
          exact ih h
      | true =>
          cases hfound : lowSurrogate? (text.drop 4) with
          | error failure =>
              rw [readString_unit_error hunit hhigh hfound] at h
              cases h
          | ok found =>
              have hfound' : lowSurrogate? ((text ++ ys).drop 4) = .ok found := by
                rw [List.drop_append_of_le_length hlength]
                apply lowSurrogate?_append hys hfound
                intro digits hdigits
                exact length_of_lowSurrogate? hunit hhigh hfound h hdigits
              cases found with
              | none =>
                  rw [readString_unit_alone hunit hhigh hfound] at h
                  rw [readString_unit_alone hunit' hhigh hfound']
                  exact ih h
              | some low =>
                  rw [readString_unit_pair hunit hhigh hfound] at h
                  rw [readString_unit_pair hunit' hhigh hfound']
                  exact ih h

theorem readString_append (hys : Blanks ys) {start start' done text s rest : List Char}
    {skip : Nat} (h : readString start skip done text = .ok (s, rest)) :
    readString start' skip done (text ++ ys) = .ok (s, rest ++ ys) := by
  -- An escape is read from its backslash, and the induction then walks over its characters.
  induction text generalizing skip done with
  | nil => simp [readString] at h
  | cons c text ih =>
      cases skip with
      | succ skip => exact ih h
      | zero =>
          rw [List.cons_append]
          simp only [readString] at h ⊢
          by_cases hquote : c = '"'
          · simp only [hquote, if_true, Except.ok.injEq, Prod.mk.injEq] at h ⊢
            exact ⟨h.1, by rw [h.2]⟩
          rw [if_neg hquote] at h ⊢
          by_cases hescape : c = '\\'
          · rw [if_pos hescape] at h ⊢
            cases text with
            | nil => simp at h
            | cons e text =>
                simp only [List.head?_cons, List.cons_append, List.tail_cons] at h ⊢
                by_cases hu : e = 'u'
                · subst hu
                  exact readString_append_unit hys ih h
                · rw [if_neg hu] at h ⊢
                  cases hsimple : simpleEscape? e with
                  | none => simp [hsimple] at h
                  | some c' =>
                      rw [hsimple] at h
                      exact ih h
          · rw [if_neg hescape] at h ⊢
            by_cases hcontrol : c.toNat < 0x20
            · simp [hcontrol] at h
            · rw [if_neg hcontrol] at h ⊢
              exact ih h

/-! ### Numbers and words -/

theorem readWhole_append (hys : Blanks ys) {text whole rest : List Char}
    (h : readWhole text = some (whole, rest)) :
    readWhole (text ++ ys) = some (whole, rest ++ ys) := by
  cases text with
  | nil => simp [readWhole] at h
  | cons c text =>
      rw [List.cons_append]
      simp only [readWhole] at h ⊢
      split_ifs at h ⊢ with hzero hdigit
      · simp only [Option.some.injEq, Prod.mk.injEq] at h ⊢
        exact ⟨h.1, by rw [h.2]⟩
      · simp only [Option.some.injEq, Prod.mk.injEq] at h ⊢
        rw [takeWhile_isDigit_append hys, dropWhile_isDigit_append hys]
        exact ⟨h.1, by rw [h.2]⟩

theorem readFraction_append (hys : Blanks ys) (text : List Char) :
    readFraction (text ++ ys) = ((readFraction text).1, (readFraction text).2 ++ ys) := by
  cases text with
  | nil =>
      unfold readFraction
      split
      · rename_i rest heq
        exact absurd (hys '.' (by simp only [List.nil_append] at heq; simp [heq])) (by decide)
      · rfl
  | cons c text =>
      by_cases hpoint : c = '.'
      · subst hpoint
        simp only [List.cons_append, readFraction, takeWhile_isDigit_append hys,
          dropWhile_isDigit_append hys]
        split <;> rfl
      · simp [readFraction, hpoint]

theorem readSign_append (hys : Blanks ys) (text : List Char) :
    readSign (text ++ ys) = ((readSign text).1, (readSign text).2 ++ ys) := by
  cases text with
  | nil =>
      have hminus : ∀ rest, ys ≠ '-' :: rest := by
        rintro rest rfl
        exact absurd (hys '-' List.mem_cons_self) (by decide)
      have hplus : ∀ rest, ys ≠ '+' :: rest := by
        rintro rest rfl
        exact absurd (hys '+' List.mem_cons_self) (by decide)
      simp only [List.nil_append]
      unfold readSign
      split
      · exact absurd rfl (hminus _)
      · exact absurd rfl (hplus _)
      · rfl
  | cons c text =>
      by_cases hminus : c = '-'
      · subst hminus
        rfl
      · by_cases hplus : c = '+'
        · subst hplus
          rfl
        · simp [readSign, hminus, hplus]

theorem readExponent_append (hys : Blanks ys) (text : List Char) :
    readExponent (text ++ ys) = ((readExponent text).1, (readExponent text).2 ++ ys) := by
  cases text with
  | nil =>
      cases ys with
      | nil => rfl
      | cons y ys =>
          have hspace := hys y List.mem_cons_self
          have hy : ¬(y = 'e' ∨ y = 'E') := by
            rintro (rfl | rfl) <;> exact absurd hspace (by decide)
          simp [readExponent, hy]
  | cons c text =>
      simp only [List.cons_append, readExponent, readSign_append hys, takeWhile_isDigit_append hys,
        dropWhile_isDigit_append hys]
      split <;> rfl

/-- The literal behind the sign. -/
def readUnsigned (negative : Bool) (text : List Char) : Option (Literal × List Char) :=
  (readWhole text).map fun (whole, rest) =>
    (⟨negative, whole, (readFraction rest).1, (readExponent (readFraction rest).2).1⟩,
      (readExponent (readFraction rest).2).2)

theorem readLiteral_minus (text : List Char) :
    readLiteral ('-' :: text) = readUnsigned true text := by
  simp only [readLiteral, readUnsigned]
  cases readWhole text <;> rfl

theorem readLiteral_unsigned {c : Char} {text : List Char} (h : c ≠ '-') :
    readLiteral (c :: text) = readUnsigned false (c :: text) := by
  simp only [readLiteral, readUnsigned, List.cons.injEq, h, false_and, imp_false,
    not_false_eq_true, implies_true]
  cases readWhole (c :: text) <;> rfl

theorem readUnsigned_append (hys : Blanks ys) {negative : Bool} {text rest : List Char}
    {literal : Literal} (h : readUnsigned negative text = some (literal, rest)) :
    readUnsigned negative (text ++ ys) = some (literal, rest ++ ys) := by
  rw [readUnsigned, Option.map_eq_some_iff] at h
  obtain ⟨⟨whole, behind⟩, hwhole, heq⟩ := h
  simp only [Prod.mk.injEq] at heq
  rw [readUnsigned, readWhole_append hys hwhole]
  simp only [Option.map_some, readFraction_append hys, readExponent_append hys, heq]

theorem readLiteral_append (hys : Blanks ys) {text rest : List Char} {literal : Literal}
    (h : readLiteral text = some (literal, rest)) :
    readLiteral (text ++ ys) = some (literal, rest ++ ys) := by
  cases text with
  | nil => simp [readLiteral, readWhole] at h
  | cons c text =>
      by_cases hminus : c = '-'
      · subst hminus
        rw [readLiteral_minus] at h
        rw [List.cons_append, readLiteral_minus]
        exact readUnsigned_append hys h
      · rw [readLiteral_unsigned hminus] at h
        rw [List.cons_append, readLiteral_unsigned hminus]
        exact readUnsigned_append hys h

theorem readNumber_append (hys : Blanks ys) : ReadsBefore ys readNumber readNumber := by
  intro text v rest h
  rw [readNumber] at h ⊢
  cases hliteral : readLiteral text with
  | none => simp [hliteral] at h
  | some found =>
      obtain ⟨literal, behind⟩ := found
      rw [hliteral] at h
      rw [readLiteral_append hys hliteral]
      cases hnumber : literal.toNumber with
      | error failure => simp [hnumber] at h
      | ok n =>
          simp only [hnumber, Except.ok.injEq, Prod.mk.injEq] at h ⊢
          exact ⟨h.1, by rw [h.2]⟩

theorem isPrefixOf?_append {α : Type} [DecidableEq α] {ys word text : List α}
    (h : ∀ c ∈ word, c ∉ ys) :
    word.isPrefixOf? (text ++ ys) = (word.isPrefixOf? text).map (· ++ ys) := by
  induction word generalizing text with
  | nil => rfl
  | cons c word ih =>
      cases text with
      | nil =>
          cases ys with
          | nil => rfl
          | cons y ys =>
              have hne : c ≠ y := fun heq => h c List.mem_cons_self (heq ▸ List.mem_cons_self)
              simp [List.isPrefixOf?, hne]
      | cons c' text =>
          have htail : word.isPrefixOf? (text ++ ys) = (word.isPrefixOf? text).map (· ++ ys) :=
            ih fun c hc => h c (List.mem_cons_of_mem _ hc)
          simp only [List.cons_append, List.isPrefixOf?, htail]
          split <;> rfl

theorem isSpace_eq_false_of_mem_words : ∀ word ∈ words, ∀ c ∈ word.1, isSpace c = false := by
  intro word hword
  simp only [words, List.mem_cons, List.not_mem_nil, or_false] at hword
  rcases hword with rfl | rfl | rfl | rfl | rfl | rfl <;> simp [isSpace]

theorem readWord?_append (hys : Blanks ys) (text : List Char) :
    readWord? (text ++ ys) =
      (readWord? text).map fun result => result.map fun (value, rest) => (value, rest ++ ys) := by
  have hwords : ∀ word ∈ words, word.1.isPrefixOf? (text ++ ys) =
      (word.1.isPrefixOf? text).map (· ++ ys) := by
    intro word hword
    apply isPrefixOf?_append
    intro c hc hmem
    have hspace := isSpace_eq_false_of_mem_words word hword c hc
    rw [hys c hmem] at hspace
    cases hspace
  unfold readWord?
  -- Only that no word holds a blank matters, so the induction may forget which words they are.
  generalize words = ws at hwords
  induction ws with
  | nil => rfl
  | cons word ws ih =>
      obtain ⟨word, result⟩ := word
      have hword : word.isPrefixOf? (text ++ ys) = (word.isPrefixOf? text).map (· ++ ys) :=
        hwords _ List.mem_cons_self
      have htail := ih fun word hword => hwords word (List.mem_cons_of_mem _ hword)
      simp only [List.findSome?_cons, hword, htail]
      cases word.isPrefixOf? text with
      | none => rfl
      | some rest =>
          cases result <;> rfl

theorem readScalar_append (hys : Blanks ys) : ReadsBefore ys readScalar readScalar := by
  intro text v rest h
  unfold readScalar at h ⊢
  rw [readWord?_append hys]
  cases hword : readWord? text with
  | none =>
      rw [hword] at h
      exact readNumber_append hys text v rest h
  | some result =>
      rw [hword] at h
      change result = .ok (v, rest) at h
      rw [h]
      rfl

end

end Gltf.Json
