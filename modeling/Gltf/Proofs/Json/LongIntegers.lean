import Gltf.Proofs.Json.Containers
import Mathlib

/-!
Integers with more digits than are read. A text is neither read nor refused exactly if reading comes
to such an integer, on its own or in arrays and objects whose elements before it could be read.
-/

namespace Gltf.Json

/-- Text that goes on a number: a digit, or a digit behind a point or an exponent. -/
inductive GoesOn : List Char → Prop
  | digit {c : Char} {rest : List Char} (h : isDigit c = true) : GoesOn (c :: rest)
  | fraction {c : Char} {rest : List Char} (h : isDigit c = true) : GoesOn ('.' :: c :: rest)
  | exponent {e c : Char} {sign rest : List Char} (mark : e = 'e' ∨ e = 'E')
      (signs : sign = [] ∨ sign = ['+'] ∨ sign = ['-']) (h : isDigit c = true) :
      GoesOn (e :: (sign ++ c :: rest))

/-- Text that begins with too many digits, which are those of an integer. -/
inductive LongDigits : List Char → Prop
  | mk {digits rest : List Char} (long : digitLimit < digits.length)
      (only : ∀ c ∈ digits, isDigit c = true) (leading : digits.head? ≠ some '0')
      (ends : ¬GoesOn rest) : LongDigits (digits ++ rest)

inductive LongInteger : List Char → Prop
  | unsigned {text : List Char} (h : LongDigits text) : LongInteger text
  | negative {text : List Char} (h : LongDigits text) : LongInteger ('-' :: text)

/-! ### Numbers -/

theorem isEmpty_takeWhile_isDigit {c : Char} {rest : List Char} :
    ((c :: rest).takeWhile isDigit).isEmpty = !isDigit c := by
  cases h : isDigit c <;> simp [h]

theorem readFraction_fst_isSome_iff {rest : List Char} :
    (readFraction rest).1.isSome ↔ ∃ c more, rest = '.' :: c :: more ∧ isDigit c = true := by
  rw [readFraction.eq_def]
  split
  · rename_i rest
    cases rest with
    | nil => simp
    | cons c rest => cases h : isDigit c <;> simp [h]
  · rename_i hpoint
    refine iff_of_false (by simp) ?_
    rintro ⟨c, more, rfl, -⟩
    exact hpoint _ rfl

theorem readFraction_of_none {rest : List Char} (h : (readFraction rest).1 = none) :
    (readFraction rest).2 = rest := by
  rw [readFraction.eq_def] at h ⊢
  split at h
  · split_ifs at h ⊢
    rfl
  · rfl

theorem readSign_append_digit {sign more : List Char} {c : Char}
    (signs : sign = [] ∨ sign = ['+'] ∨ sign = ['-']) (h : isDigit c = true) :
    (readSign (sign ++ c :: more)).2 = c :: more := by
  rcases signs with rfl | rfl | rfl
  · have hminus : c ≠ '-' := by
      rintro rfl
      cases h
    have hplus : c ≠ '+' := by
      rintro rfl
      cases h
    simp [readSign, hminus, hplus]
  · rfl
  · rfl

theorem readExponent_fst_isSome_iff {rest : List Char} :
    (readExponent rest).1.isSome ↔ ∃ e sign c more, rest = e :: (sign ++ c :: more) ∧
      (e = 'e' ∨ e = 'E') ∧ (sign = [] ∨ sign = ['+'] ∨ sign = ['-']) ∧ isDigit c = true := by
  cases rest with
  | nil => simp [readExponent]
  | cons e rest =>
      have hsome : (readExponent (e :: rest)).1.isSome ↔
          (e = 'e' ∨ e = 'E') ∧ !((readSign rest).2.takeWhile isDigit).isEmpty := by
        simp only [readExponent]
        split_ifs with h <;> simp_all
      rw [hsome]
      constructor
      · rintro ⟨mark, hdigits⟩
        obtain ⟨sign, signs, heq⟩ := readSign_cases rest
        cases hrest : (readSign rest).2 with
        | nil => simp [hrest] at hdigits
        | cons c more =>
            rw [hrest, isEmpty_takeWhile_isDigit, Bool.not_not] at hdigits
            exact ⟨e, sign, c, more, by rw [heq, hrest], mark, signs, hdigits⟩
      · rintro ⟨e', sign, c, more, heq, mark, signs, h⟩
        obtain ⟨rfl, rfl⟩ := List.cons.inj heq
        rw [readSign_append_digit signs h, isEmpty_takeWhile_isDigit, h]
        exact ⟨mark, rfl⟩

theorem not_goesOn_iff {rest : List Char} :
    ¬GoesOn rest ↔ rest.takeWhile isDigit = [] ∧ (readFraction rest).1 = none ∧
      (readExponent rest).1 = none := by
  rw [← Option.not_isSome_iff_eq_none, ← Option.not_isSome_iff_eq_none,
    readFraction_fst_isSome_iff, readExponent_fst_isSome_iff]
  constructor
  · intro h
    refine ⟨?_, ?_, ?_⟩
    · cases rest with
      | nil => rfl
      | cons c rest =>
          rw [List.takeWhile_cons_of_neg]
          exact fun hc => h (.digit hc)
    · rintro ⟨c, more, rfl, hc⟩
      exact h (.fraction hc)
    · rintro ⟨e, sign, c, more, rfl, mark, signs, hc⟩
      exact h (.exponent mark signs hc)
  · rintro ⟨hdigit, hfraction, hexponent⟩ h
    cases h with
    | digit hc => simp [hc] at hdigit
    | fraction hc => exact hfraction ⟨_, _, rfl, hc⟩
    | exponent mark signs hc => exact hexponent ⟨_, _, _, _, rfl, mark, signs, hc⟩

theorem readWhole_eq_some_iff {text whole rest : List Char} (long : 1 < whole.length) :
    readWhole text = some (whole, rest) ↔ text = whole ++ rest ∧
      (∀ c ∈ whole, isDigit c = true) ∧ whole.head? ≠ some '0' ∧ rest.takeWhile isDigit = [] := by
  constructor
  · intro h
    cases text with
    | nil => cases h
    | cons c text =>
        rw [readWhole] at h
        split_ifs at h with hzero hdigit
        · cases h
          exact absurd long (by simp)
        · cases h
          refine ⟨by rw [List.cons_append, List.takeWhile_append_dropWhile], ?_, by simpa, ?_⟩
          · rw [List.forall_mem_cons]
            exact ⟨hdigit, fun c => List.mem_takeWhile_imp⟩
          · rw [List.takeWhile_eq_nil_iff]
            intro hlength
            have := List.dropWhile_get_zero_not isDigit text hlength
            simpa using this
  · rintro ⟨rfl, hdigits, hzero, hrest⟩
    cases whole with
    | nil => exact absurd long (by simp)
    | cons c whole =>
        rw [List.forall_mem_cons] at hdigits
        rw [List.cons_append, readWhole, if_neg (by simpa using hzero), if_pos hdigits.1,
          List.takeWhile_append_of_pos hdigits.2, List.dropWhile_append_of_pos hdigits.2, hrest,
          List.append_nil]
        have := List.takeWhile_append_dropWhile (p := isDigit) (l := rest)
        rw [hrest, List.nil_append] at this
        rw [this]

theorem toNumber_eq_error_iff {literal : Literal} {failure : Failure} :
    literal.toNumber = .error failure ↔ failure = .integerTooLong ∧ literal.fraction = none ∧
      literal.exponent = none ∧ digitLimit < literal.whole.length := by
  obtain ⟨negative, whole, fraction, exponent⟩ := literal
  cases fraction with
  | some fraction => simp [Literal.toNumber]
  | none =>
      cases exponent with
      | some exponent => simp [Literal.toNumber]
      | none =>
          by_cases hlong : digitLimit < whole.length <;> simp [Literal.toNumber, hlong, eq_comm]

theorem readUnsigned_tooLong_iff {negative : Bool} {text : List Char} :
    (∃ literal rest, readUnsigned negative text = some (literal, rest) ∧
      literal.toNumber = .error .integerTooLong) ↔ LongDigits text := by
  have hlimit {whole : List Char} (h : digitLimit < whole.length) : 1 < whole.length :=
    (by decide : 1 < digitLimit).trans h
  constructor
  · rintro ⟨literal, rest, hread, herror⟩
    obtain ⟨-, hfraction, hexponent, hlong⟩ := toNumber_eq_error_iff.1 herror
    rw [readUnsigned, Option.map_eq_some_iff] at hread
    obtain ⟨⟨whole, behind⟩, hwhole, heq⟩ := hread
    simp only [Prod.mk.injEq] at heq
    obtain ⟨rfl, -⟩ := heq
    obtain ⟨rfl, hdigits, hzero, hbehind⟩ := (readWhole_eq_some_iff (hlimit hlong)).1 hwhole
    simp only [readFraction_of_none hfraction] at hexponent
    exact .mk hlong hdigits hzero (not_goesOn_iff.2 ⟨hbehind, hfraction, hexponent⟩)
  · rintro ⟨long, only, leading, ends⟩
    rename_i whole behind
    obtain ⟨hbehind, hfraction, hexponent⟩ := not_goesOn_iff.1 ends
    have hwhole := (readWhole_eq_some_iff (hlimit long)).2 ⟨rfl, only, leading, hbehind⟩
    refine ⟨⟨negative, whole, none, none⟩, (readExponent behind).2, ?_,
      toNumber_eq_error_iff.2 ⟨rfl, rfl, rfl, long⟩⟩
    simp only [readUnsigned, hwhole, Option.map_some, hfraction, readFraction_of_none hfraction,
      hexponent]

theorem LongDigits.head {text : List Char} (h : LongDigits text) :
    ∃ c rest, text = c :: rest ∧ isDigit c = true := by
  obtain ⟨long, only, -, -⟩ := h
  rename_i digits rest
  cases digits with
  | nil => cases long
  | cons c digits => exact ⟨c, digits ++ rest, rfl, only c List.mem_cons_self⟩

theorem longInteger_minus_iff {text : List Char} : LongInteger ('-' :: text) ↔ LongDigits text := by
  constructor
  · intro h
    cases h with
    | unsigned h =>
        obtain ⟨c, rest, heq, hc⟩ := h.head
        obtain ⟨rfl, -⟩ := List.cons.inj heq
        cases hc
    | negative h => exact h
  · exact .negative

theorem longInteger_cons_iff {c : Char} {text : List Char} (hminus : c ≠ '-') :
    LongInteger (c :: text) ↔ LongDigits (c :: text) := by
  constructor
  · intro h
    cases h with
    | unsigned h => exact h
    | negative h => exact absurd rfl hminus
  · exact .unsigned

theorem readNumber_tooLong_iff {text : List Char} :
    readNumber text = .error .integerTooLong ↔ LongInteger text := by
  have hliteral : readNumber text = .error .integerTooLong ↔ ∃ literal rest,
      readLiteral text = some (literal, rest) ∧ literal.toNumber = .error .integerTooLong := by
    rw [readNumber]
    cases readLiteral text with
    | none => simp
    | some found =>
        obtain ⟨literal, rest⟩ := found
        cases hnumber : literal.toNumber <;> simp [hnumber]
  rw [hliteral]
  cases text with
  | nil =>
      refine iff_of_false (by simp [readLiteral, readWhole]) fun h => ?_
      cases h with
      | unsigned h =>
          obtain ⟨c, rest, heq, -⟩ := h.head
          cases heq
  | cons c text =>
      by_cases hminus : c = '-'
      · subst hminus
        rw [readLiteral_minus, longInteger_minus_iff, readUnsigned_tooLong_iff]
      · rw [readLiteral_unsigned hminus, longInteger_cons_iff hminus, readUnsigned_tooLong_iff]

theorem LongInteger.head {text : List Char} (h : LongInteger text) :
    ∃ c rest, text = c :: rest ∧ (c = '-' ∨ isDigit c = true) := by
  cases h with
  | unsigned h =>
      obtain ⟨c, rest, rfl, hc⟩ := h.head
      exact ⟨c, rest, rfl, .inr hc⟩
  | negative h => exact ⟨'-', _, rfl, .inl rfl⟩

/-- A long integer is no array and no object. -/
theorem not_longInteger_of_head {c : Char} {text : List Char} (hminus : c ≠ '-')
    (hdigit : isDigit c = false) : ¬LongInteger (c :: text) := by
  intro h
  obtain ⟨c', rest, heq, hc⟩ := h.head
  obtain ⟨rfl, -⟩ := List.cons.inj heq
  rcases hc with hc | hc
  · exact hminus hc
  · rw [hdigit] at hc
    cases hc

/-! ### Words and strings -/

theorem readWord?_ne_tooLong (text : List Char) :
    readWord? text ≠ some (.error .integerTooLong) := by
  intro h
  obtain ⟨⟨word, result⟩, hmem, hprefix⟩ := List.exists_of_findSome?_eq_some h
  obtain ⟨rest, -, hresult⟩ := Option.map_eq_some_iff.1 hprefix
  have hword : result ≠ .error .integerTooLong := by
    simp only [words, List.mem_cons, Prod.mk.injEq, List.not_mem_nil, or_false] at hmem
    rcases hmem with ⟨-, rfl⟩ | ⟨-, rfl⟩ | ⟨-, rfl⟩ | ⟨-, rfl⟩ | ⟨-, rfl⟩ | ⟨-, rfl⟩ <;> simp
  cases result with
  | ok value => cases hresult
  | error failure =>
      cases hresult
      exact hword rfl

theorem readWord?_of_longInteger {text : List Char} (h : LongInteger text) :
    readWord? text = none := by
  have hletter {letter c : Char} (hc : isDigit c = true) (hletter : isDigit letter = false) :
      letter ≠ c := by
    rintro rfl
    rw [hc] at hletter
    cases hletter
  cases h with
  | unsigned h =>
      obtain ⟨c, rest, rfl, hc⟩ := h.head
      simp (disch := decide) [readWord?, words, List.isPrefixOf?, hletter hc]
  | negative h =>
      obtain ⟨c, rest, rfl, hc⟩ := h.head
      simp (disch := decide) [readWord?, words, List.isPrefixOf?, hletter hc]

theorem readScalar_tooLong_iff {text : List Char} :
    readScalar text = .error .integerTooLong ↔ LongInteger text := by
  constructor
  · intro h
    rw [readScalar] at h
    split at h
    · rename_i result hword
      exact absurd (hword.trans (congrArg some h)) (readWord?_ne_tooLong text)
    · exact readNumber_tooLong_iff.1 h
  · intro h
    rw [readScalar, readWord?_of_longInteger h]
    exact readNumber_tooLong_iff.2 h

theorem readString_ne_tooLong (start : List Char) (skip : Nat) (done text : List Char) :
    readString start skip done text ≠ .error .integerTooLong := by
  induction text generalizing skip done with
  | nil => simp [readString]
  | cons c text ih =>
      rcases readString_cons start done skip c text with
        hends | ⟨what, place, hfault, -⟩ | ⟨skip', done', hpassed⟩
      · simp [hends]
      · simp [hfault]
      · rw [hpassed]
        exact ih skip' done'

theorem readName_ne_tooLong (text : List Char) : readName text ≠ .error .integerTooLong := by
  intro h
  rw [readName.eq_def] at h
  split at h
  · simp only [bind, Except.bind] at h
    split at h
    · rename_i failure hfailure
      cases h
      exact readString_ne_tooLong _ _ _ _ hfailure
    · split at h <;> cases h
  · cases h

/-! ### Places -/

/-- The places at which items are read, from the first one on, each behind items that are read and
a comma. -/
inductive ItemAt (item : Reader Json) : List Char → List Char → Prop
  | first (text : List Char) : ItemAt item text text
  | next {text rest behind place : List Char} {v : Json} (read : item text = .ok (v, rest))
      (comma : skipSpace rest = ',' :: behind) (more : ItemAt item (skipSpace behind) place) :
      ItemAt item text place

/-- The places at which the values of members are read. -/
inductive MemberAt (item : Reader Json) : List Char → List Char → Prop
  | first {text place : List Char} {name : String} (named : readName text = .ok (name, place)) :
      MemberAt item text place
  | next {text value rest behind place : List Char} {name : String} {v : Json}
      (named : readName text = .ok (name, value)) (read : item value = .ok (v, rest))
      (comma : skipSpace rest = ',' :: behind) (more : MemberAt item (skipSpace behind) place) :
      MemberAt item text place

/-- The places of the elements of an array or an object that is not empty. -/
inductive ElementAt (size depth : Nat) : List Char → List Char → Prop
  | item {text place : List Char} (opened : ∀ behind, skipSpace text ≠ ']' :: behind)
      (h : ItemAt (readValue size depth) (skipSpace text) place) :
      ElementAt size depth ('[' :: text) place
  | member {text place : List Char} (opened : ∀ behind, skipSpace text ≠ '}' :: behind)
      (h : MemberAt (readValue size depth) (skipSpace text) place) :
      ElementAt size depth ('{' :: text) place

/-- The places to which reading comes for a value, from the place of a value on; the depth is that
to which containers may nest. -/
inductive ComesTo (size : Nat) : Nat → List Char → List Char → Prop
  | here (depth : Nat) (text : List Char) : ComesTo size depth text text
  | inside {depth : Nat} {text place inner : List Char} (element : ElementAt size depth text place)
      (h : ComesTo size depth place inner) : ComesTo size (depth + 1) text inner

section
variable {item : Reader Json} {text rest place : List Char} {v : Json}

theorem ItemAt.of_ok (h : ItemAt item text place) (read : item text = .ok (v, rest)) :
    place = text ∨ ∃ behind, skipSpace rest = ',' :: behind ∧
      ItemAt item (skipSpace behind) place := by
  cases h with
  | first => exact .inl rfl
  | next read' comma more =>
      rw [read, Except.ok.injEq, Prod.mk.injEq] at read'
      obtain ⟨-, rfl⟩ := read'
      exact .inr ⟨_, comma, more⟩

theorem readItems_tooLong_iff (hitem : Advances item) {fuel : Nat} {done : List Json}
    (hfuel : text.length < fuel) :
    readItems item fuel done text = .error .integerTooLong ↔
      ∃ place, ItemAt item text place ∧ item place = .error .integerTooLong := by
  induction fuel generalizing done text with
  | zero => exact absurd hfuel (Nat.not_lt_zero _)
  | succ fuel ih =>
      cases hread : item text with
      | error failure =>
          rw [readItems_of_error hread, Except.error.injEq]
          constructor
          · rintro rfl
            exact ⟨text, .first text, hread⟩
          · rintro ⟨place, hplace, h⟩
            cases hplace with
            | first =>
                rw [hread] at h
                exact Except.error.inj h
            | next read =>
                rw [hread] at read
                cases read
      | ok found =>
          obtain ⟨v, rest⟩ := found
          -- No failure comes of this item, so what counts is whether there are more.
          have hmore : (∃ place, ItemAt item text place ∧ item place = .error .integerTooLong) ↔
              ∃ behind, skipSpace rest = ',' :: behind ∧
                ∃ place, ItemAt item (skipSpace behind) place ∧
                  item place = .error .integerTooLong := by
            constructor
            · rintro ⟨place, hplace, h⟩
              rcases hplace.of_ok hread with rfl | ⟨behind, hcomma, hplace⟩
              · rw [hread] at h
                cases h
              · exact ⟨behind, hcomma, place, hplace, h⟩
            · rintro ⟨behind, hcomma, place, hplace, h⟩
              exact ⟨place, .next hread hcomma hplace, h⟩
          rw [hmore]
          rcases delimiter_cases ']' (skipSpace rest) with
            ⟨behind, hclose⟩ | ⟨behind, hcomma⟩ | ⟨hclose, hcomma⟩
          · rw [readItems_of_close hread hclose, hclose]
            simp
          · have hshorter := (behind_of_skipSpace hcomma).shorter
            have hbehind := (skipSpace_suffix behind).length_le
            have hrest := (hitem _ _ _ hread).shorter
            rw [readItems_of_comma hread hcomma, ih (by omega), hcomma]
            simp
          · rw [readItems_of_other hread hclose hcomma]
            simp [hcomma]

theorem MemberAt.of_ok {name : String} {value : List Char} (h : MemberAt item text place)
    (named : readName text = .ok (name, value)) (read : item value = .ok (v, rest)) :
    place = value ∨ ∃ behind, skipSpace rest = ',' :: behind ∧
      MemberAt item (skipSpace behind) place := by
  cases h with
  | first named' =>
      rw [named, Except.ok.injEq, Prod.mk.injEq] at named'
      exact .inl named'.2.symm
  | next named' read' comma more =>
      rw [named, Except.ok.injEq, Prod.mk.injEq] at named'
      obtain ⟨-, rfl⟩ := named'
      rw [read, Except.ok.injEq, Prod.mk.injEq] at read'
      obtain ⟨-, rfl⟩ := read'
      exact .inr ⟨_, comma, more⟩

theorem readMembers_tooLong_iff (hitem : Advances item) {fuel : Nat}
    {done : List (String × Json)} (hfuel : text.length < fuel) :
    readMembers item fuel done text = .error .integerTooLong ↔
      ∃ place, MemberAt item text place ∧ item place = .error .integerTooLong := by
  induction fuel generalizing done text with
  | zero => exact absurd hfuel (Nat.not_lt_zero _)
  | succ fuel ih =>
      cases hname : readName text with
      | error failure =>
          rw [readMembers_of_name_error hname, Except.error.injEq]
          refine iff_of_false (fun h => readName_ne_tooLong text (h ▸ hname)) ?_
          rintro ⟨place, hplace, -⟩
          cases hplace with
          | first named =>
              rw [hname] at named
              cases named
          | next named =>
              rw [hname] at named
              cases named
      | ok found =>
          obtain ⟨name, value⟩ := found
          have hvalue := (advances_readName _ _ _ hname).shorter
          cases hread : item value with
          | error failure =>
              rw [readMembers_of_error hname hread, Except.error.injEq]
              constructor
              · rintro rfl
                exact ⟨value, .first hname, hread⟩
              · rintro ⟨place, hplace, h⟩
                cases hplace with
                | first named =>
                    rw [hname, Except.ok.injEq, Prod.mk.injEq] at named
                    rw [← named.2, hread] at h
                    exact Except.error.inj h
                | next named read =>
                    rw [hname, Except.ok.injEq, Prod.mk.injEq] at named
                    rw [← named.2, hread] at read
                    cases read
          | ok found =>
              obtain ⟨v, rest⟩ := found
              have hmore : (∃ place, MemberAt item text place ∧
                    item place = .error .integerTooLong) ↔
                  ∃ behind, skipSpace rest = ',' :: behind ∧
                    ∃ place, MemberAt item (skipSpace behind) place ∧
                      item place = .error .integerTooLong := by
                constructor
                · rintro ⟨place, hplace, h⟩
                  rcases hplace.of_ok hname hread with rfl | ⟨behind, hcomma, hplace⟩
                  · rw [hread] at h
                    cases h
                  · exact ⟨behind, hcomma, place, hplace, h⟩
                · rintro ⟨behind, hcomma, place, hplace, h⟩
                  exact ⟨place, .next hname hread hcomma hplace, h⟩
              rw [hmore]
              rcases delimiter_cases '}' (skipSpace rest) with
                ⟨behind, hclose⟩ | ⟨behind, hcomma⟩ | ⟨hclose, hcomma⟩
              · rw [readMembers_of_close hname hread hclose, hclose]
                simp
              · have hshorter := (behind_of_skipSpace hcomma).shorter
                have hbehind := (skipSpace_suffix behind).length_le
                have hrest := (hitem _ _ _ hread).shorter
                rw [readMembers_of_comma hname hread hcomma, ih (by omega), hcomma]
                simp
              · rw [readMembers_of_other hname hread hclose hcomma]
                simp [hcomma]

theorem ItemAt.suffix (hitem : Advances item) (h : ItemAt item text place) : place <:+ text := by
  induction h with
  | first text => exact List.suffix_rfl
  | next read comma more ih =>
      exact ((ih.trans (skipSpace_suffix _)).trans (behind_of_skipSpace comma).suffix).trans
        (hitem _ _ _ read).suffix

theorem MemberAt.suffix (hitem : Advances item) (h : MemberAt item text place) :
    place <:+ text := by
  induction h with
  | first named => exact (advances_readName _ _ _ named).suffix
  | next named read comma more ih =>
      exact (((ih.trans (skipSpace_suffix _)).trans (behind_of_skipSpace comma).suffix).trans
        (hitem _ _ _ read).suffix).trans (advances_readName _ _ _ named).suffix

end

theorem map_eq_error_iff {α β : Type} {answer : Except Failure α} {f : α → β}
    {failure : Failure} : answer.map f = .error failure ↔ answer = .error failure := by
  cases answer <;> simp [Except.map]

section
variable {size depth : Nat} {text place : List Char}

theorem ElementAt.suffix (h : ElementAt size depth text place) : place <:+ text := by
  have hitem := advances_readValue size depth
  cases h with
  | item opened h =>
      exact ((h.suffix hitem).trans (skipSpace_suffix _)).trans (List.suffix_cons _ _)
  | member opened h =>
      exact ((h.suffix hitem).trans (skipSpace_suffix _)).trans (List.suffix_cons _ _)

theorem ComesTo.suffix (h : ComesTo size depth text place) : place <:+ text := by
  induction h with
  | here depth text => exact List.suffix_rfl
  | inside element h ih => exact ih.trans element.suffix

theorem readValue_tooLong_iff_leaf {c : Char} (harray : c ≠ '[') (hobject : c ≠ '{') :
    readValue size depth (c :: text) = .error .integerTooLong ↔ LongInteger (c :: text) := by
  by_cases hquote : c = '"'
  · subst hquote
    rw [readValue_string, map_eq_error_iff]
    exact iff_of_false (readString_ne_tooLong _ _ _ _) (not_longInteger_of_head (by decide) rfl)
  · rw [readValue_scalar hquote harray hobject, readScalar_tooLong_iff]

theorem readValue_tooLong_iff_array (hsize : text.length < size) :
    readValue size (depth + 1) ('[' :: text) = .error .integerTooLong ↔
      ∃ place, ElementAt size depth ('[' :: text) place ∧
        readValue size depth place = .error .integerTooLong := by
  have hspace := (skipSpace_suffix text).length_le
  by_cases hempty : ∃ behind, skipSpace text = ']' :: behind
  · obtain ⟨behind, hempty⟩ := hempty
    rw [readValue_array_nil hempty]
    refine iff_of_false (by simp) ?_
    rintro ⟨place, hplace, -⟩
    cases hplace with
    | item opened => exact opened behind hempty
  · rw [readValue_array (not_exists.1 hempty), map_eq_error_iff,
      readItems_tooLong_iff (advances_readValue size depth) (by omega)]
    constructor
    · rintro ⟨place, hplace, h⟩
      exact ⟨place, .item (not_exists.1 hempty) hplace, h⟩
    · rintro ⟨place, hplace, h⟩
      cases hplace with
      | item opened hplace => exact ⟨place, hplace, h⟩

theorem readValue_tooLong_iff_object (hsize : text.length < size) :
    readValue size (depth + 1) ('{' :: text) = .error .integerTooLong ↔
      ∃ place, ElementAt size depth ('{' :: text) place ∧
        readValue size depth place = .error .integerTooLong := by
  have hspace := (skipSpace_suffix text).length_le
  by_cases hempty : ∃ behind, skipSpace text = '}' :: behind
  · obtain ⟨behind, hempty⟩ := hempty
    rw [readValue_object_nil hempty]
    refine iff_of_false (by simp) ?_
    rintro ⟨place, hplace, -⟩
    cases hplace with
    | member opened => exact opened behind hempty
  · rw [readValue_object (not_exists.1 hempty), map_eq_error_iff,
      readMembers_tooLong_iff (advances_readValue size depth) (by omega)]
    constructor
    · rintro ⟨place, hplace, h⟩
      exact ⟨place, .member (not_exists.1 hempty) hplace, h⟩
    · rintro ⟨place, hplace, h⟩
      cases hplace with
      | member opened hplace => exact ⟨place, hplace, h⟩

/-- No container is opened where none may nest. -/
theorem readValue_zero_tooLong_iff :
    readValue size 0 text = .error .integerTooLong ↔ LongInteger text := by
  cases text with
  | nil =>
      refine iff_of_false (by unfold readValue; simp) fun h => ?_
      obtain ⟨c, rest, heq, -⟩ := h.head
      cases heq
  | cons c text =>
      by_cases harray : c = '['
      · subst harray
        rw [readValue_array_zero]
        exact iff_of_false (by simp) (not_longInteger_of_head (by decide) rfl)
      by_cases hobject : c = '{'
      · subst hobject
        rw [readValue_object_zero]
        exact iff_of_false (by simp) (not_longInteger_of_head (by decide) rfl)
      exact readValue_tooLong_iff_leaf harray hobject

theorem readValue_succ_tooLong_iff (hsize : text.length ≤ size) :
    readValue size (depth + 1) text = .error .integerTooLong ↔ LongInteger text ∨
      ∃ place, ElementAt size depth text place ∧
        readValue size depth place = .error .integerTooLong := by
  cases text with
  | nil =>
      refine iff_of_false (by unfold readValue; simp) ?_
      rintro (h | ⟨place, ⟨⟩, -⟩)
      obtain ⟨c, rest, heq, -⟩ := h.head
      cases heq
  | cons c text =>
      rw [List.length_cons] at hsize
      by_cases harray : c = '['
      · subst harray
        rw [readValue_tooLong_iff_array (by omega), or_iff_right]
        exact not_longInteger_of_head (by decide) rfl
      by_cases hobject : c = '{'
      · subst hobject
        rw [readValue_tooLong_iff_object (by omega), or_iff_right]
        exact not_longInteger_of_head (by decide) rfl
      rw [readValue_tooLong_iff_leaf harray hobject, or_iff_left]
      rintro ⟨place, hplace, -⟩
      cases hplace with
      | item => exact harray rfl
      | member => exact hobject rfl

theorem readValue_tooLong_iff (hsize : text.length ≤ size) :
    readValue size depth text = .error .integerTooLong ↔
      ∃ place, ComesTo size depth text place ∧ LongInteger place := by
  induction depth generalizing text with
  | zero =>
      rw [readValue_zero_tooLong_iff]
      constructor
      · exact fun h => ⟨text, .here 0 text, h⟩
      · rintro ⟨place, ⟨⟩, h⟩
        exact h
  | succ depth ih =>
      rw [readValue_succ_tooLong_iff hsize]
      constructor
      · rintro (h | ⟨place, hplace, h⟩)
        · exact ⟨text, .here (depth + 1) text, h⟩
        · have hlength := hplace.suffix.length_le
          obtain ⟨inner, hinner, hlong⟩ := (ih (hlength.trans hsize)).1 h
          exact ⟨inner, .inside hplace hinner, hlong⟩
      · rintro ⟨inner, hinner, hlong⟩
        cases hinner with
        | here => exact .inl hlong
        | inside element h =>
            have hlength := element.suffix.length_le
            exact .inr ⟨_, element, (ih (hlength.trans hsize)).2 ⟨inner, h, hlong⟩⟩

end

/-! ### Texts -/

theorem ofText_tooLong_iff {text : List Char} :
    ofText text = .error .integerTooLong ↔
      ∃ place, ComesTo text.length nestingLimit (skipSpace text) place ∧ LongInteger place := by
  rw [← readValue_tooLong_iff (skipSpace_suffix text).length_le, ofText]
  split_ifs with hmark
  · cases text with
    | nil => cases hmark
    | cons c text =>
        obtain rfl := Option.some.inj hmark
        have hspace : skipSpace ('\uFEFF' :: text) = '\uFEFF' :: text := rfl
        rw [hspace, readValue_scalar (by decide) (by decide) (by decide), readScalar_tooLong_iff]
        exact iff_of_false (by simp) (not_longInteger_of_head (by decide) rfl)
  · cases hread : readValue text.length nestingLimit (skipSpace text) with
    | error failure => simp [bind, Except.bind]
    | ok found =>
        obtain ⟨v, rest⟩ := found
        simp only [bind, Except.bind]
        split <;> simp

/-- The text of a document behind its mark. -/
def unmarked (bs : Bytes) : Bytes := (byteOrderMark.isPrefixOf? bs).getD bs

/-- Bytes of a text in which reading comes to an integer with too many digits. -/
def HoldsLongInteger (bs : Bytes) : Prop :=
  ∃ text place, Utf8.decode (unmarked bs) = .ok text ∧
    ComesTo text.length nestingLimit (skipSpace text) place ∧ LongInteger place

theorem parseFrom_tooLong_iff {skipped : Nat} {bs : Bytes} :
    parseFrom skipped bs = .error .integerTooLong ↔
      ∃ text, Utf8.decode bs = .ok text ∧ ofText text = .error .integerTooLong := by
  rw [parseFrom]
  cases Utf8.decode bs with
  | error e => simp
  | ok text =>
      cases htext : ofText text with
      | ok value => simp [htext]
      | error failure => cases failure <;> simp [htext]

theorem parse_tooLong_iff {bs : Bytes} :
    parse bs = .error .integerTooLong ↔ HoldsLongInteger bs := by
  have hparse : parse bs = .error .integerTooLong ↔ ∃ text,
      Utf8.decode (unmarked bs) = .ok text ∧ ofText text = .error .integerTooLong := by
    rw [parse, unmarked]
    cases byteOrderMark.isPrefixOf? bs <;> exact parseFrom_tooLong_iff
  rw [hparse, HoldsLongInteger]
  simp only [ofText_tooLong_iff, exists_and_left]

/-- Where no more digits stand in a row than are read there is no long integer. -/
theorem not_holdsLongInteger {bs : Bytes}
    (h : ∀ text digits, Utf8.decode (unmarked bs) = .ok text → digits <:+: text →
      (∀ c ∈ digits, isDigit c = true) → digits.length ≤ digitLimit) : ¬HoldsLongInteger bs := by
  rintro ⟨text, place, hdecode, hcomes, hlong⟩
  have hplace : place <:+ text := hcomes.suffix.trans (skipSpace_suffix text)
  have hdigits {place : List Char} (hplace : place <:+ text) : ¬LongDigits place := by
    rintro ⟨long, only, -, -⟩
    have := h text _ hdecode ((List.prefix_append _ _).isInfix.trans hplace.isInfix) only
    omega
  cases hlong with
  | unsigned hlong => exact hdigits hplace hlong
  | negative hlong => exact hdigits ((List.suffix_cons _ _).trans hplace) hlong

theorem longInteger_ones {k : Nat} (h : digitLimit < k) :
    LongInteger (List.replicate k '1') := by
  have hone : ∀ c ∈ List.replicate k '1', c = '1' := fun c => List.eq_of_mem_replicate
  have hdigits : LongDigits (List.replicate k '1' ++ []) := by
    refine .mk (by simpa using h) ?_ ?_ ?_
    · intro c hc
      rw [hone c hc]
      rfl
    · intro hzero
      exact absurd (hone '0' (List.mem_of_mem_head? hzero)) (by decide)
    · rintro ⟨⟩
  rw [List.append_nil] at hdigits
  exact .unsigned hdigits

/-- Nothing but ones, too many of them. -/
theorem holdsLongInteger_ones {k : Nat} (h : digitLimit < k) :
    HoldsLongInteger (List.replicate k 0x31) := by
  obtain ⟨n, rfl⟩ : ∃ n, k = n + 1 := Nat.exists_eq_succ_of_ne_zero (by omega)
  have hunmarked : unmarked (List.replicate (n + 1) 0x31) = List.replicate (n + 1) 0x31 := rfl
  have hspace : skipSpace (List.replicate (n + 1) '1') = List.replicate (n + 1) '1' := rfl
  refine ⟨List.replicate (n + 1) '1', List.replicate (n + 1) '1', ?_, ?_, longInteger_ones h⟩
  · rw [hunmarked, Utf8.decode, decodeFrom_replicate (c := '1') rfl]
    rfl
  · rw [hspace]
    exact .here _ _

end Gltf.Json
