import Gltf.Proofs.Json.Scalars
import Mathlib

/-!
Blanks behind a JSON text change nothing: containers, whole texts and documents are read as without
them. The bound on the number of items may grow with the text.
-/

namespace Gltf.Json

section
variable {ys : List Char}

/-! ### Containers -/

theorem readItems_nil {item : Reader Json} (hnil : ∀ r, item [] ≠ .ok r) {fuel : Nat}
    {done : List Json} {r : List Json × List Char} : readItems item fuel done [] ≠ .ok r := by
  intro h
  cases fuel with
  | zero => cases h
  | succ fuel =>
      rw [readItems] at h
      cases hread : item [] with
      | error failure =>
          rw [hread] at h
          cases h
      | ok found => exact hnil found hread

theorem readItems_append {item item' : Reader Json}
    (hitem : ReadsBefore ys item item') (hnil : ∀ r, item [] ≠ .ok r) {fuel fuel' : Nat}
    (hfuel : fuel ≤ fuel') (done : List Json) :
    ReadsBefore ys (readItems item fuel done) (readItems item' fuel' done) := by
  induction fuel generalizing fuel' done with
  | zero =>
      intro text v rest h
      cases h
  | succ fuel ih =>
      intro text v rest h
      obtain ⟨fuel', rfl⟩ : ∃ n, fuel' = n + 1 := ⟨fuel' - 1, by omega⟩
      rw [readItems] at h ⊢
      cases hread : item text with
      | error failure =>
          rw [hread] at h
          cases h
      | ok found =>
          obtain ⟨value, behind⟩ := found
          rw [hread] at h
          rw [hitem text value behind hread]
          simp only [bind, Except.bind] at h ⊢
          cases hbehind : skipSpace behind with
          | nil => simp [hbehind] at h
          | cons c behind' =>
              rw [skipSpace_append (by simp [hbehind]), hbehind]
              rw [hbehind] at h
              by_cases hclose : c = ']'
              · subst hclose
                simp only [List.cons_append, Except.ok.injEq, Prod.mk.injEq] at h ⊢
                exact ⟨h.1, by rw [h.2]⟩
              by_cases hcomma : c = ','
              · subst hcomma
                simp only [List.cons_append] at h ⊢
                -- Blanks alone hold no item, so what follows the comma does not run into `ys`.
                have hmore : skipSpace behind' ≠ [] := by
                  intro hempty
                  rw [hempty] at h
                  exact readItems_nil hnil h
                rw [skipSpace_append hmore]
                exact ih (by omega) (value :: done) (skipSpace behind') v rest h
              · simp [hclose, hcomma] at h

theorem readName_append (hys : Blanks ys) {text rest : List Char} {name : String}
    (h : readName text = .ok (name, rest)) (hrest : rest ≠ []) :
    readName (text ++ ys) = .ok (name, rest ++ ys) := by
  cases text with
  | nil => cases h
  | cons c text =>
      by_cases hquote : c = '"'
      · subst hquote
        simp only [List.cons_append, readName, bind, Except.bind] at h ⊢
        cases hread : readString ('"' :: text) 0 [] text with
        | error failure => simp [hread] at h
        | ok found =>
            obtain ⟨s, behind⟩ := found
            rw [hread] at h
            rw [readString_append hys hread]
            simp only at h ⊢
            cases hbehind : skipSpace behind with
            | nil => simp [hbehind] at h
            | cons c behind' =>
                rw [skipSpace_append (by simp [hbehind]), hbehind]
                rw [hbehind] at h
                by_cases hcolon : c = ':'
                · subst hcolon
                  simp only [List.cons_append, Except.ok.injEq, Prod.mk.injEq] at h ⊢
                  obtain ⟨hname, rfl⟩ := h
                  exact ⟨hname, skipSpace_append hrest⟩
                · simp [hcolon] at h
      · simp [readName, hquote] at h

theorem readMembers_nil {item : Reader Json} {fuel : Nat} {done : List (String × Json)}
    {r : List (String × Json) × List Char} : readMembers item fuel done [] ≠ .ok r := by
  intro h
  cases fuel with
  | zero => cases h
  | succ fuel => cases h

theorem readMembers_append (hys : Blanks ys) {item item' : Reader Json}
    (hitem : ReadsBefore ys item item') (hnil : ∀ r, item [] ≠ .ok r) {fuel fuel' : Nat}
    (hfuel : fuel ≤ fuel') (done : List (String × Json)) :
    ReadsBefore ys (readMembers item fuel done) (readMembers item' fuel' done) := by
  induction fuel generalizing fuel' done with
  | zero =>
      intro text v rest h
      cases h
  | succ fuel ih =>
      intro text v rest h
      obtain ⟨fuel', rfl⟩ : ∃ n, fuel' = n + 1 := ⟨fuel' - 1, by omega⟩
      rw [readMembers] at h ⊢
      cases hname : readName text with
      | error failure =>
          rw [hname] at h
          cases h
      | ok found =>
          obtain ⟨name, value⟩ := found
          rw [hname] at h
          simp only [bind, Except.bind] at h
          cases hread : item value with
          | error failure =>
              rw [hread] at h
              cases h
          | ok found =>
              obtain ⟨value', behind⟩ := found
              -- The text behind a name is not empty, as a value is read from it.
              have hvalue : value ≠ [] := by
                rintro rfl
                exact hnil _ hread
              rw [hread] at h
              rw [readName_append hys hname hvalue]
              simp only [bind, Except.bind]
              rw [hitem value value' behind hread]
              simp only at h ⊢
              cases hbehind : skipSpace behind with
              | nil => simp [hbehind] at h
              | cons c behind' =>
                  rw [skipSpace_append (by simp [hbehind]), hbehind]
                  rw [hbehind] at h
                  by_cases hclose : c = '}'
                  · subst hclose
                    simp only [List.cons_append, Except.ok.injEq, Prod.mk.injEq] at h ⊢
                    exact ⟨h.1, by rw [h.2]⟩
                  by_cases hcomma : c = ','
                  · subst hcomma
                    simp only [List.cons_append] at h ⊢
                    have hmore : skipSpace behind' ≠ [] := by
                      intro hempty
                      rw [hempty] at h
                      exact readMembers_nil h
                    rw [skipSpace_append hmore]
                    exact ih (by omega) ((name, value') :: done) (skipSpace behind') v rest h
                  · simp [hclose, hcomma] at h

theorem readValue_nil {size depth : Nat} {r : Json × List Char} :
    readValue size depth [] ≠ .ok r := by
  intro h
  unfold readValue at h
  cases h

theorem readValue_scalar {size depth : Nat} {c : Char} {text : List Char} (hquote : c ≠ '"')
    (harray : c ≠ '[') (hobject : c ≠ '{') :
    readValue size depth (c :: text) = readScalar (c :: text) := by
  unfold readValue
  simp [hquote, harray, hobject]

/-- Strings, numbers and words do not depend on either bound. -/
theorem readValue_append_leaf (hys : Blanks ys) {size size' depth depth' : Nat} {c : Char}
    {text rest : List Char} {v : Json} (harray : c ≠ '[') (hobject : c ≠ '{')
    (h : readValue size depth (c :: text) = .ok (v, rest)) :
    readValue size' depth' (c :: text ++ ys) = .ok (v, rest ++ ys) := by
  by_cases hquote : c = '"'
  · subst hquote
    unfold readValue at h ⊢
    simp only [List.cons_append] at h ⊢
    cases hread : readString ('"' :: text) 0 [] text with
    | error failure =>
        rw [hread] at h
        cases h
    | ok found =>
        obtain ⟨s, behind⟩ := found
        rw [hread] at h
        cases h
        rw [readString_append hys hread]
        rfl
  · rw [readValue_scalar hquote harray hobject] at h
    rw [List.cons_append, readValue_scalar hquote harray hobject]
    exact readScalar_append hys (c :: text) v rest h

theorem readValue_append_array {size size' depth : Nat} (hsize : size ≤ size')
    (ih : ReadsBefore ys (readValue size depth) (readValue size' depth)) {text rest : List Char}
    {v : Json} (h : readValue size (depth + 1) ('[' :: text) = .ok (v, rest)) :
    readValue size' (depth + 1) ('[' :: text ++ ys) = .ok (v, rest ++ ys) := by
  simp only [List.cons_append, readValue] at h ⊢
  have hnil : ∀ r, readValue size depth [] ≠ .ok r := fun r => readValue_nil
  cases htext : skipSpace text with
  | nil =>
      cases hread : readItems (readValue size depth) size [] [] with
      | error failure => simp [htext, hread, Except.map] at h
      | ok found => exact absurd hread (readItems_nil hnil)
  | cons c text' =>
      rw [skipSpace_append (by simp [htext]), htext]
      rw [htext] at h
      by_cases hclose : c = ']'
      · subst hclose
        cases h
        rfl
      · simp only [List.cons_append, List.cons.injEq, hclose, false_and, imp_false,
          not_false_eq_true, implies_true] at h ⊢
        cases hread : readItems (readValue size depth) size [] (c :: text') with
        | error failure =>
            rw [hread] at h
            cases h
        | ok found =>
            obtain ⟨items, behind⟩ := found
            have happend := readItems_append ih hnil hsize [] (c :: text') items behind hread
            rw [hread] at h
            rw [List.cons_append] at happend
            rw [happend]
            cases h
            rfl

theorem readValue_append_object (hys : Blanks ys) {size size' depth : Nat} (hsize : size ≤ size')
    (ih : ReadsBefore ys (readValue size depth) (readValue size' depth)) {text rest : List Char}
    {v : Json} (h : readValue size (depth + 1) ('{' :: text) = .ok (v, rest)) :
    readValue size' (depth + 1) ('{' :: text ++ ys) = .ok (v, rest ++ ys) := by
  simp only [List.cons_append, readValue] at h ⊢
  have hnil : ∀ r, readValue size depth [] ≠ .ok r := fun r => readValue_nil
  cases htext : skipSpace text with
  | nil =>
      cases hread : readMembers (readValue size depth) size [] [] with
      | error failure => simp [htext, hread, Except.map] at h
      | ok found => exact absurd hread readMembers_nil
  | cons c text' =>
      rw [skipSpace_append (by simp [htext]), htext]
      rw [htext] at h
      by_cases hclose : c = '}'
      · subst hclose
        cases h
        rfl
      · simp only [List.cons_append, List.cons.injEq, hclose, false_and, imp_false,
          not_false_eq_true, implies_true] at h ⊢
        cases hread : readMembers (readValue size depth) size [] (c :: text') with
        | error failure =>
            rw [hread] at h
            cases h
        | ok found =>
            obtain ⟨members, behind⟩ := found
            have happend :=
              readMembers_append hys ih hnil hsize [] (c :: text') members behind hread
            rw [hread] at h
            rw [List.cons_append] at happend
            rw [happend]
            cases h
            rfl

theorem readValue_append (hys : Blanks ys) {size size' : Nat} (hsize : size ≤ size') (depth : Nat) :
    ReadsBefore ys (readValue size depth) (readValue size' depth) := by
  induction depth with
  | zero =>
      intro text v rest h
      cases text with
      | nil => exact absurd h readValue_nil
      | cons c text =>
          have harray : c ≠ '[' := by
            rintro rfl
            cases h
          have hobject : c ≠ '{' := by
            rintro rfl
            cases h
          exact readValue_append_leaf hys harray hobject h
  | succ depth ih =>
      intro text v rest h
      cases text with
      | nil => exact absurd h readValue_nil
      | cons c text =>
          by_cases harray : c = '['
          · subst harray
            exact readValue_append_array hsize ih h
          · by_cases hobject : c = '{'
            · subst hobject
              exact readValue_append_object hys hsize ih h
            · exact readValue_append_leaf hys harray hobject h

theorem ofText_append (hys : Blanks ys) {text : List Char} {v : Json} (h : ofText text = .ok v) :
    ofText (text ++ ys) = .ok v := by
  rw [ofText] at h ⊢
  cases text with
  | nil => cases h
  | cons c text =>
      by_cases hmark : c = '\uFEFF'
      · simp [hmark] at h
      rw [if_neg (by simpa using hmark)] at h ⊢
      simp only [bind, Except.bind] at h ⊢
      cases hread : readValue (c :: text).length nestingLimit (skipSpace (c :: text)) with
      | error failure =>
          rw [hread] at h
          cases h
      | ok found =>
          obtain ⟨value, behind⟩ := found
          have hspace : skipSpace (c :: text) ≠ [] := by
            intro hempty
            rw [hempty] at hread
            exact readValue_nil hread
          have hsize : (c :: text).length ≤ (c :: text ++ ys).length := by
            rw [List.length_append]
            omega
          rw [hread] at h
          rw [skipSpace_append hspace, readValue_append hys hsize nestingLimit _ _ _ hread]
          simp only at h ⊢
          cases hbehind : skipSpace behind with
          | nil =>
              rw [hbehind] at h
              rw [skipSpace_append_eq_nil hys hbehind]
              exact h
          | cons c' rest =>
              rw [hbehind] at h
              cases h

end

/-! ### Bytes -/

theorem decodeFrom_replicate {b : UInt8} {c : Char} (hlead : Utf8.lead b = .ascii c) (k : Nat)
    (done : List Char) (start here : Nat) :
    Utf8.decodeFrom done start here none (List.replicate k b) =
      .ok (done.reverse ++ List.replicate k c) := by
  induction k generalizing done start here with
  | zero => simp [Utf8.decodeFrom]
  | succ k ih =>
      rw [List.replicate_succ, Utf8.decodeFrom, hlead]
      simp only [ih, List.reverse_cons, List.append_assoc, List.singleton_append,
        List.replicate_succ]

/-- One byte either ends decoding or leads to another state of it, whatever follows. -/
theorem decodeFrom_cons (done : List Char) (start here : Nat) (state : Option Utf8.Pending)
    (b : UInt8) :
    (∃ e, ∀ bs, Utf8.decodeFrom done start here state (b :: bs) = .error e) ∨
      ∃ chars start' state', ∀ bs, Utf8.decodeFrom done start here state (b :: bs) =
        Utf8.decodeFrom (chars ++ done) start' (here + 1) state' bs := by
  cases state with
  | none =>
      simp only [Utf8.decodeFrom]
      cases Utf8.lead b with
      | ascii c => exact .inr ⟨[c], here + 1, none, fun bs => rfl⟩
      | pending p => exact .inr ⟨[], start, some p, fun bs => rfl⟩
      | invalid => exact .inl ⟨_, fun bs => rfl⟩
  | some p =>
      simp only [Utf8.decodeFrom]
      cases p.step b with
      | char c => exact .inr ⟨[c], here + 1, none, fun bs => rfl⟩
      | pending p => exact .inr ⟨[], start, some p, fun bs => rfl⟩
      | invalid => exact .inl ⟨_, fun bs => rfl⟩

theorem decodeFrom_append_spaces (k : Nat) {done text : List Char} {start here : Nat}
    {state : Option Utf8.Pending} {bs : Bytes}
    (h : Utf8.decodeFrom done start here state bs = .ok text) :
    Utf8.decodeFrom done start here state (bs ++ List.replicate k 0x20) =
      .ok (text ++ List.replicate k ' ') := by
  induction bs generalizing done start here state with
  | nil =>
      cases state with
      | none =>
          cases h
          exact decodeFrom_replicate rfl k done start here
      | some p => cases h
  | cons b bs ih =>
      rw [List.cons_append]
      rcases decodeFrom_cons done start here state b with
        ⟨e, hstep⟩ | ⟨chars, start', state', hstep⟩
      · rw [hstep] at h
        cases h
      · rw [hstep] at h ⊢
        exact ih h

theorem parseFrom_append_spaces (k skipped : Nat) {bs : Bytes} {v : Json}
    (h : parseFrom skipped bs = .ok v) :
    parseFrom skipped (bs ++ List.replicate k 0x20) = .ok v := by
  rw [parseFrom] at h ⊢
  cases hdecode : Utf8.decode bs with
  | error e =>
      rw [hdecode] at h
      cases h
  | ok text =>
      have hblanks : Blanks (List.replicate k ' ') := by
        intro c hc
        rw [List.eq_of_mem_replicate hc]
        rfl
      have happend :
          Utf8.decode (bs ++ List.replicate k 0x20) = .ok (text ++ List.replicate k ' ') :=
        decodeFrom_append_spaces k hdecode
      rw [hdecode] at h
      rw [happend]
      simp only at h ⊢
      cases htext : ofText text with
      | ok value =>
          rw [htext] at h
          rw [ofText_append hblanks htext]
          exact h
      | error failure =>
          rw [htext] at h
          cases failure <;> cases h

/-- Spaces behind a document do not change what it says. -/
theorem parse_append_spaces (k : Nat) {bs : Bytes} {v : Json} (h : parse bs = .ok v) :
    parse (bs ++ List.replicate k 0x20) = .ok v := by
  -- No byte of the mark is a space, so spaces cannot complete it.
  have hmark : ∀ b ∈ byteOrderMark, b ∉ List.replicate k 0x20 := by
    intro b hb hmem
    rw [List.eq_of_mem_replicate hmem] at hb
    exact absurd hb (by decide)
  rw [parse] at h ⊢
  rw [isPrefixOf?_append hmark]
  cases hfound : byteOrderMark.isPrefixOf? bs with
  | none =>
      rw [hfound] at h
      exact parseFrom_append_spaces k 0 h
  | some rest =>
      rw [hfound] at h
      exact parseFrom_append_spaces k 3 h

/-! ### Texts that begin with a letter of no word -/

theorem decodeFrom_eq_append {done text : List Char} {start here : Nat}
    {state : Option Utf8.Pending} {bs : Bytes}
    (h : Utf8.decodeFrom done start here state bs = .ok text) :
    ∃ more, text = done.reverse ++ more := by
  induction bs generalizing done start here state with
  | nil =>
      cases state with
      | none =>
          cases h
          exact ⟨[], by rw [List.append_nil]⟩
      | some p => cases h
  | cons b bs ih =>
      rcases decodeFrom_cons done start here state b with
        ⟨e, hstep⟩ | ⟨chars, start', state', hstep⟩
      · rw [hstep] at h
        cases h
      · rw [hstep] at h
        obtain ⟨more, rfl⟩ := ih h
        exact ⟨chars.reverse ++ more, by rw [List.reverse_append, List.append_assoc]⟩

theorem ofText_g (text : List Char) (v : Json) : ofText ('g' :: text) ≠ .ok v := by
  have hword : readWord? ('g' :: text) = none := by
    simp [readWord?, words, List.isPrefixOf?]
  have hnumber : readNumber ('g' :: text) = .error (.fault .expectingValue ('g' :: text)) := by
    rw [readNumber, readLiteral_unsigned (by decide)]
    rfl
  have hread (size depth : Nat) : readValue size depth ('g' :: text) =
      .error (.fault .expectingValue ('g' :: text)) := by
    rw [readValue_scalar (by decide) (by decide) (by decide), readScalar, hword]
    exact hnumber
  have hspace : skipSpace ('g' :: text) = 'g' :: text := rfl
  intro h
  rw [ofText, if_neg (by simp), hspace, hread] at h
  cases h

/-- The first letter of the magic of a container begins no JSON text. -/
theorem parse_g (bs : Bytes) (v : Json) : parse (0x67 :: bs) ≠ .ok v := by
  intro h
  have hmark : byteOrderMark.isPrefixOf? (0x67 :: bs) = none := by
    simp [byteOrderMark, List.isPrefixOf?]
  rw [parse, hmark] at h
  simp only [parseFrom] at h
  cases hdecode : Utf8.decode (0x67 :: bs) with
  | error e =>
      rw [hdecode] at h
      cases h
  | ok text =>
      obtain ⟨more, rfl⟩ : ∃ more, text = ['g'].reverse ++ more := decodeFrom_eq_append hdecode
      rw [hdecode] at h
      simp only [List.reverse_singleton, List.singleton_append] at h
      cases htext : ofText ('g' :: more) with
      | ok value => exact ofText_g more value htext
      | error failure =>
          rw [htext] at h
          cases failure <;> cases h

end Gltf.Json
