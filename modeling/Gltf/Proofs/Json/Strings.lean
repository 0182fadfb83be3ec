import Gltf.Proofs.Json.Scalars
import Gltf.Proofs.Json.Syntax
import Mathlib

/-!
Strings and the grammar. The reader of strings takes the pieces of a string one by one; only behind a
high surrogate it looks at the next piece as well, and takes both if that is a low one.
-/

namespace Gltf.Json.Syntax

/-! ### Escapes -/

theorem simpleEscape?_letter (e : Escape) : simpleEscape? e.letter = some e.char := by
  cases e <;> rfl

theorem letter_ne_u (e : Escape) : e.letter ≠ 'u' := by
  cases e <;> decide

theorem exists_of_simpleEscape? {c c' : Char} (h : simpleEscape? c = some c') :
    ∃ e : Escape, e.letter = c ∧ e.char = c' := by
  rw [simpleEscape?] at h
  split_ifs at h with hself hb hf hn hr ht <;> cases h
  · rcases hself with rfl | rfl | rfl
    · exact ⟨.quote, rfl, rfl⟩
    · exact ⟨.backslash, rfl, rfl⟩
    · exact ⟨.slash, rfl, rfl⟩
  · exact ⟨.backspace, hb.symm, rfl⟩
  · exact ⟨.formFeed, hf.symm, rfl⟩
  · exact ⟨.lineFeed, hn.symm, rfl⟩
  · exact ⟨.carriageReturn, hr.symm, rfl⟩
  · exact ⟨.tab, ht.symm, rfl⟩

/-! ### Code units -/

theorem hexDigit?_digitChar : ∀ (v : Fin 16) (upper : Bool),
    hexDigit? (HexDigit.mk v upper).char = some v.val := by decide

theorem hexDigit?_char (d : HexDigit) : hexDigit? d.char = some d.value.val :=
  hexDigit?_digitChar d.value d.upper

theorem exists_digitChar_of_lt : ∀ k : Fin 128, ∀ n ∈ hexDigit? (Char.ofNat k),
    ∃ (v : Fin 16) (upper : Bool), (HexDigit.mk v upper).char = Char.ofNat k ∧ v.val = n := by
  decide +kernel

theorem exists_of_hexDigit? {c : Char} {n : Nat} (h : hexDigit? c = some n) :
    ∃ d : HexDigit, d.char = c ∧ d.value.val = n := by
  have hascii : c.toNat < 128 := by
    rw [hexDigit?] at h
    split_ifs at h with hdigit hlower hupper
    · simp only [isDigit, Bool.and_eq_true, decide_eq_true_eq] at hdigit
      have : c.toNat ≤ 57 := hdigit.2
      omega
    · have : c.toNat ≤ 102 := hlower.2
      omega
    · have : c.toNat ≤ 70 := hupper.2
      omega
  have hmem : n ∈ hexDigit? (Char.ofNat (⟨c.toNat, hascii⟩ : Fin 128)) := by
    rwa [Fin.val_mk, Char.ofNat_toNat]
  obtain ⟨v, upper, hchar, hvalue⟩ := exists_digitChar_of_lt _ n hmem
  exact ⟨⟨v, upper⟩, by rw [hchar, Fin.val_mk, Char.ofNat_toNat], hvalue⟩

namespace CodeUnit

theorem hexUnit?_digits (u : CodeUnit) (c : Char) (text : List Char) :
    hexUnit? (u.digits ++ c :: text) = some u.value := by
  simp only [digits, List.cons_append, List.nil_append, hexUnit?, hexValue?, hexDigit?_char,
    Option.bind_eq_bind, Option.bind_some]
  rfl

theorem exists_of_hexUnit? {text : List Char} {n : Nat} (h : hexUnit? text = some n) :
    ∃ (u : CodeUnit) (c : Char) (rest : List Char), text = u.digits ++ c :: rest ∧ u.value = n := by
  obtain ⟨a, b, c, d, e, rest, rfl⟩ := hexUnit?_eq_some h
  simp only [hexUnit?, hexValue?, Option.bind_eq_bind, Option.bind_eq_some_iff,
    Option.some.injEq] at h
  obtain ⟨na, ha, nb, hb, nc, hc, nd, hd, rfl⟩ := h
  obtain ⟨a, rfl, rfl⟩ := exists_of_hexDigit? ha
  obtain ⟨b, rfl, rfl⟩ := exists_of_hexDigit? hb
  obtain ⟨c, rfl, rfl⟩ := exists_of_hexDigit? hc
  obtain ⟨d, rfl, rfl⟩ := exists_of_hexDigit? hd
  exact ⟨⟨a, b, c, d⟩, e, rest, rfl, rfl⟩

theorem isHighSurrogate_value (u : CodeUnit) : isHighSurrogate u.value = u.isHigh := by
  rw [Bool.eq_iff_iff]
  simp only [isHighSurrogate, isHigh, Bool.and_eq_true, decide_eq_true_eq]
  omega

theorem isLowSurrogate_value (u : CodeUnit) : isLowSurrogate u.value = u.isLow := by
  rw [Bool.eq_iff_iff]
  simp only [isLowSurrogate, isLow, Bool.and_eq_true, decide_eq_true_eq]
  omega

theorem lowSurrogate?_digits (u : CodeUnit) (c : Char) (text : List Char) :
    lowSurrogate? ('\\' :: 'u' :: (u.digits ++ c :: text)) =
      .ok (if u.isLow then some u.value else none) := by
  have hlong : ((u.digits ++ c :: text).drop 4).isEmpty = false := rfl
  have hunit : unicodeUnit (u.digits ++ c :: text) = .ok u.value :=
    unicodeUnit_eq_ok_iff.2 (u.hexUnit?_digits c text)
  rw [lowSurrogate?, hlong, hunit, ← isLowSurrogate_value]
  rfl

theorem exists_of_lowSurrogate? {text : List Char} {n : Nat}
    (h : lowSurrogate? text = .ok (some n)) :
    ∃ (u : CodeUnit) (c : Char) (rest : List Char),
      text = '\\' :: 'u' :: (u.digits ++ c :: rest) ∧ u.isLow = true ∧ u.value = n := by
  rw [lowSurrogate?.eq_def] at h
  split at h
  · rename_i digits
    split_ifs at h
    · cases h
    · cases hunit : unicodeUnit digits with
      | error failure => simp [hunit, bind, Except.bind] at h
      | ok unit =>
          obtain ⟨u, c, rest, rfl, rfl⟩ := exists_of_hexUnit? (unicodeUnit_eq_ok_iff.1 hunit)
          rw [hunit] at h
          have hlow : (if isLowSurrogate u.value then some u.value else none) = some n :=
            Except.ok.inj h
          split_ifs at hlow with hsurrogate
          exact ⟨u, c, rest, rfl, u.isLowSurrogate_value ▸ hsurrogate, Option.some.inj hlow⟩
  · cases h

end CodeUnit

/-! ### The reader, piece by piece -/

section
variable {start done text : List Char}

theorem readString_skip {skip : Nat} (taken : List Char) (h : taken.length = skip) :
    readString start skip done (taken ++ text) = readString start 0 done text := by
  induction taken generalizing skip with
  | nil =>
      subst h
      rfl
  | cons c taken ih =>
      obtain rfl : taken.length + 1 = skip := h
      exact ih rfl

theorem readString_plain {c : Char} (quotable : 0x20 ≤ c.toNat ∧ c ≠ '"' ∧ c ≠ '\\') :
    readString start 0 done (c :: text) = readString start 0 (c :: done) text := by
  obtain ⟨hcontrol, hquote, hescape⟩ := quotable
  simp [readString, hquote, hescape, not_lt.2 hcontrol]

theorem readString_escape (e : Escape) :
    readString start 0 done ('\\' :: e.letter :: text) = readString start 0 (e.char :: done) text := by
  simp [readString, letter_ne_u e, simpleEscape?_letter e]

theorem readString_unit_text {u : CodeUnit} (hhigh : u.isHigh = false) (c : Char) :
    readString start 0 done ('\\' :: 'u' :: (u.digits ++ c :: text)) =
      readString start 0 (unitChar u.value :: done) (c :: text) := by
  rw [← u.isHighSurrogate_value] at hhigh
  rw [readString_unit (u.hexUnit?_digits c text) hhigh]
  exact readString_skip ('u' :: u.digits) rfl

theorem readString_alone_text {u : CodeUnit} (hhigh : u.isHigh = true) {c : Char}
    (hlow : lowSurrogate? (c :: text) = .ok none) :
    readString start 0 done ('\\' :: 'u' :: (u.digits ++ c :: text)) =
      readString start 0 (unitChar u.value :: done) (c :: text) := by
  rw [← u.isHighSurrogate_value] at hhigh
  rw [readString_unit_alone (u.hexUnit?_digits c text) hhigh hlow]
  exact readString_skip ('u' :: u.digits) rfl

theorem readString_pair_text {u low : CodeUnit} (hhigh : u.isHigh = true)
    (hlow : low.isLow = true) (c : Char) :
    readString start 0 done
        ('\\' :: 'u' :: (u.digits ++ '\\' :: 'u' :: (low.digits ++ c :: text))) =
      readString start 0 (joined u low :: done) (c :: text) := by
  have hfound : lowSurrogate? ('\\' :: 'u' :: (low.digits ++ c :: text)) =
      .ok (some low.value) := by
    rw [low.lowSurrogate?_digits, hlow]
    rfl
  rw [← u.isHighSurrogate_value] at hhigh
  rw [readString_unit_pair (u.hexUnit?_digits _ _) hhigh hfound]
  exact readString_skip ('u' :: u.digits ++ '\\' :: 'u' :: low.digits) rfl

end

@[simp] theorem piecesText_nil : piecesText [] = [] := rfl

@[simp] theorem piecesText_cons (p : Piece) (ps : List Piece) :
    piecesText (p :: ps) = p.text ++ piecesText ps := rfl

theorem piecesText_append (ps ps' : List Piece) :
    piecesText (ps ++ ps') = piecesText ps ++ piecesText ps' := List.flatMap_append

/-- Behind an escape there is a character, if only the closing quote. -/
theorem exists_head (ps : List Piece) (rest : List Char) :
    ∃ c more, piecesText ps ++ '"' :: rest = c :: more := by
  cases h : piecesText ps ++ '"' :: rest with
  | nil => simp at h
  | cons c more => exact ⟨c, more, rfl⟩

/-! ### Surrogates among the pieces -/

section
variable {u : CodeUnit} {ps : List Piece}

theorem chars?_pair {low : CodeUnit} (hhigh : u.isHigh = true) (hlow : low.isLow = true) :
    chars? (.unit u :: .unit low :: ps) = (chars? ps).map (joined u low :: ·) := by
  rw [chars?.eq_def]
  simp [hhigh, hlow]

theorem chars?_unit (hhigh : u.isHigh = false) (hlow : u.isLow = false) :
    chars? (.unit u :: ps) = (chars? ps).map (Char.ofNat u.value :: ·) := by
  rw [chars?.eq_def]
  simp [hhigh, hlow]

theorem chars?_low (hhigh : u.isHigh = false) (hlow : u.isLow = true) :
    chars? (.unit u :: ps) = none := by
  rw [chars?.eq_def]
  simp [hhigh, hlow]

theorem exists_low_of_chars? {cs : List Char} (hhigh : u.isHigh = true)
    (h : chars? (.unit u :: ps) = some cs) :
    ∃ low ps', ps = .unit low :: ps' ∧ low.isLow = true := by
  rw [chars?.eq_def] at h
  simp only [hhigh, if_true] at h
  split at h
  · rename_i low ps'
    split_ifs at h with hlow
    exact ⟨low, ps', rfl, hlow⟩
  · cases h

theorem unitChar_value (hhigh : u.isHigh = false) (hlow : u.isLow = false) :
    unitChar u.value = Char.ofNat u.value := by
  rw [unitChar, u.isHighSurrogate_value, u.isLowSurrogate_value, hhigh, hlow]
  rfl

end

/-! ### Strings -/

/-- The pieces of a string are read as its characters. -/
theorem readString_piecesText {ps : List Piece} {cs : List Char} (h : chars? ps = some cs)
    (start done rest : List Char) :
    readString start 0 done (piecesText ps ++ '"' :: rest) = .ok (done.reverse ++ cs, rest) := by
  -- A surrogate pair is two pieces, so the induction is on their number.
  induction hn : ps.length using Nat.strong_induction_on generalizing ps cs done with
  | h n ih =>
  subst hn
  cases ps with
  | nil =>
      cases h
      rw [piecesText_nil, List.nil_append, List.append_nil]
      rfl
  | cons p ps =>
      have htail {ps' : List Piece} {cs' : List Char} (c : Char) (hcs : chars? ps' = some cs')
          (hshort : ps'.length ≤ ps.length) :
          readString start 0 (c :: done) (piecesText ps' ++ '"' :: rest) =
            .ok (done.reverse ++ c :: cs', rest) := by
        rw [ih _ (Nat.lt_succ_of_le hshort) hcs (c :: done) rfl, List.reverse_cons,
          List.append_assoc, List.singleton_append]
      cases p with
      | plain c quotable =>
          obtain ⟨cs, hcs, rfl⟩ := Option.map_eq_some_iff.1 h
          exact (readString_plain quotable).trans (htail c hcs le_rfl)
      | escape e =>
          obtain ⟨cs, hcs, rfl⟩ := Option.map_eq_some_iff.1 h
          exact (readString_escape e).trans (htail e.char hcs le_rfl)
      | unit u =>
          cases hhigh : u.isHigh with
          | true =>
              obtain ⟨low, ps, rfl, hlow⟩ := exists_low_of_chars? hhigh h
              rw [chars?_pair hhigh hlow, Option.map_eq_some_iff] at h
              obtain ⟨cs, hcs, rfl⟩ := h
              obtain ⟨c, more, hmore⟩ := exists_head ps rest
              have htail := htail (joined u low) hcs (Nat.le_succ _)
              rw [hmore] at htail
              simp only [piecesText_cons, Piece.text, List.append_assoc, List.cons_append, hmore]
              rw [readString_pair_text hhigh hlow, htail]
          | false =>
              cases hlow : u.isLow with
              | true =>
                  rw [chars?_low hhigh hlow] at h
                  cases h
              | false =>
                  rw [chars?_unit hhigh hlow, Option.map_eq_some_iff] at h
                  obtain ⟨cs, hcs, rfl⟩ := h
                  obtain ⟨c, more, hmore⟩ := exists_head ps rest
                  have htail := htail (Char.ofNat u.value) hcs le_rfl
                  rw [hmore] at htail
                  simp only [piecesText_cons, Piece.text, List.append_assoc, List.cons_append,
                    hmore]
                  rw [readString_unit_text hhigh, unitChar_value hhigh hlow, htail]

/-- The text of pieces up to a closing quote, whose characters, if they have any, are what `s` holds
behind those of `done`. -/
def Spelled (done text s rest : List Char) : Prop :=
  ∃ ps, text = piecesText ps ++ '"' :: rest ∧ ∀ cs, chars? ps = some cs → s = done.reverse ++ cs

section
variable {start done text s rest : List Char}

theorem spelled_nil : Spelled done ('"' :: rest) done.reverse rest := by
  refine ⟨[], rfl, ?_⟩
  intro cs hcs
  cases hcs
  exact (List.append_nil _).symm

/-- One more character, with the pieces that spell it. -/
theorem Spelled.prepend (taken : List Piece) {c : Char} (h : Spelled (c :: done) text s rest)
    (hchars : ∀ ps cs, text = piecesText ps ++ '"' :: rest → chars? (taken ++ ps) = some cs →
      ∃ cs', chars? ps = some cs' ∧ c :: cs' = cs) :
    Spelled done (piecesText taken ++ text) s rest := by
  obtain ⟨ps, hps, hread⟩ := h
  refine ⟨taken ++ ps, ?_, ?_⟩
  · rw [hps, piecesText_append, List.append_assoc]
  · intro cs hcs
    obtain ⟨cs', hcs', rfl⟩ := hchars ps cs hps hcs
    rw [hread cs' hcs', List.reverse_cons, List.append_assoc, List.singleton_append]

theorem Spelled.unit {u : CodeUnit} (hhigh : u.isHigh = false)
    (h : Spelled (unitChar u.value :: done) text s rest) :
    Spelled done ('\\' :: 'u' :: (u.digits ++ text)) s rest := by
  refine Spelled.prepend [.unit u] h ?_
  intro ps cs _ hcs
  rw [List.singleton_append] at hcs
  cases hlow : u.isLow with
  | true =>
      rw [chars?_low hhigh hlow] at hcs
      cases hcs
  | false =>
      rw [unitChar_value hhigh hlow]
      rwa [chars?_unit hhigh hlow, Option.map_eq_some_iff] at hcs

theorem Spelled.pair {u low : CodeUnit} (hhigh : u.isHigh = true) (hlow : low.isLow = true)
    (h : Spelled (joined u low :: done) text s rest) :
    Spelled done ('\\' :: 'u' :: (u.digits ++ '\\' :: 'u' :: (low.digits ++ text))) s rest := by
  refine Spelled.prepend [.unit u, .unit low] h ?_
  intro ps cs _ hcs
  rw [List.cons_append, List.singleton_append] at hcs
  rwa [chars?_pair hhigh hlow, Option.map_eq_some_iff] at hcs

/-- A high surrogate without its counterpart is replaced, and no pieces have such characters. -/
theorem Spelled.alone {u : CodeUnit} {c : Char} (hhigh : u.isHigh = true)
    (hfound : lowSurrogate? text = .ok none) (h : Spelled (c :: done) text s rest) :
    Spelled done ('\\' :: 'u' :: (u.digits ++ text)) s rest := by
  refine Spelled.prepend [.unit u] h ?_
  intro ps cs hps hcs
  obtain ⟨low, ps, rfl, hlow⟩ := exists_low_of_chars? hhigh hcs
  obtain ⟨d, more, hmore⟩ := exists_head ps rest
  rw [hps, piecesText_cons, List.append_assoc, hmore, Piece.text, List.cons_append,
    List.cons_append, low.lowSurrogate?_digits, hlow] at hfound
  cases hfound

/-- The case of an escape by a code unit, given that shorter texts are spelled. -/
theorem spelled_of_unit
    (ih : ∀ {text' done : List Char}, text'.length < text.length →
      readString start 0 done text' = .ok (s, rest) → Spelled done text' s rest)
    (h : readString start 0 done ('\\' :: 'u' :: text) = .ok (s, rest)) :
    Spelled done ('\\' :: 'u' :: text) s rest := by
  cases hunit : hexUnit? text with
  | none => simp [readString, unicodeUnit, hunit] at h
  | some n =>
      obtain ⟨u, c, text, rfl, rfl⟩ := CodeUnit.exists_of_hexUnit? hunit
      have hshort : (c :: text).length < (u.digits ++ c :: text).length := by
        simp [CodeUnit.digits]
      cases hhigh : u.isHigh with
      | false =>
          rw [readString_unit_text hhigh] at h
          exact (ih hshort h).unit hhigh
      | true =>
          cases hfound : lowSurrogate? (c :: text) with
          | error failure =>
              rw [← u.isHighSurrogate_value] at hhigh
              rw [readString_unit_error hunit hhigh hfound] at h
              cases h
          | ok found =>
              cases found with
              | none =>
                  rw [readString_alone_text hhigh hfound] at h
                  exact (ih hshort h).alone hhigh hfound
              | some n =>
                  obtain ⟨low, d, text', htext, hlow, -⟩ :=
                    CodeUnit.exists_of_lowSurrogate? hfound
                  rw [htext] at ih h ⊢
                  rw [readString_pair_text hhigh hlow] at h
                  refine (ih ?_ h).pair hhigh hlow
                  simp only [List.length_cons, List.length_append]
                  omega

/-- What is read as a string is spelled by pieces. -/
theorem spelled_of_readString (h : readString start 0 done text = .ok (s, rest)) :
    Spelled done text s rest := by
  -- An escape is more than one character, so the induction is on the length of the text.
  induction hn : text.length using Nat.strong_induction_on generalizing text done with
  | h n ih =>
  subst hn
  cases text with
  | nil => cases h
  | cons c text =>
      by_cases hquote : c = '"'
      · subst hquote
        cases h
        exact spelled_nil
      by_cases hescape : c = '\\'
      · subst hescape
        cases text with
        | nil => cases h
        | cons e text =>
            by_cases hu : e = 'u'
            · subst hu
              refine spelled_of_unit (fun hshort h => ih _ ?_ h rfl) h
              simp only [List.length_cons]
              omega
            · cases hsimple : simpleEscape? e with
              | none => simp [readString, hu, hsimple] at h
              | some c' =>
                  obtain ⟨e, rfl, rfl⟩ := exists_of_simpleEscape? hsimple
                  rw [readString_escape] at h
                  have hrest := ih _ (by simp) h rfl
                  exact Spelled.prepend [.escape e] hrest
                    fun ps cs _ hcs => Option.map_eq_some_iff.1 hcs
      by_cases hcontrol : c.toNat < 0x20
      · simp [readString, hquote, hescape, hcontrol] at h
      have quotable : 0x20 ≤ c.toNat ∧ c ≠ '"' ∧ c ≠ '\\' := ⟨not_lt.1 hcontrol, hquote, hescape⟩
      rw [readString_plain quotable] at h
      have hrest := ih _ (Nat.lt_succ_self _) h rfl
      exact Spelled.prepend [.plain c quotable] hrest
        fun ps cs _ hcs => Option.map_eq_some_iff.1 hcs

end

end Gltf.Json.Syntax
