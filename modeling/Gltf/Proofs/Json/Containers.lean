import Gltf.Proofs.Json.TrailingBlanks
import Mathlib

/-!
Arrays and objects, one element at a time: what the readers of items and members do with an element
and the delimiter behind it. Every reader leaves less than it was given, so a bound on the length of
the text is a bound on the number of elements.
-/

namespace Gltf.Json

/-! ### Elements and delimiters -/

/-- Behind an element stands the end of the container, a comma, or something else. -/
theorem delimiter_cases (close : Char) (text : List Char) :
    (∃ behind, text = close :: behind) ∨ (∃ behind, text = ',' :: behind) ∨
      (∀ behind, text ≠ close :: behind) ∧ ∀ behind, text ≠ ',' :: behind := by
  by_cases hclose : ∃ behind, text = close :: behind
  · exact .inl hclose
  · by_cases hcomma : ∃ behind, text = ',' :: behind
    · exact .inr (.inl hcomma)
    · exact .inr (.inr ⟨not_exists.1 hclose, not_exists.1 hcomma⟩)

section
variable {item : Reader Json} {fuel : Nat} {text rest behind : List Char} {v : Json}
  {failure : Failure}

section
variable {done : List Json}

theorem readItems_of_error (h : item text = .error failure) :
    readItems item (fuel + 1) done text = .error failure := by
  simp [readItems, h, bind, Except.bind]

theorem readItems_of_close (h : item text = .ok (v, rest))
    (hrest : skipSpace rest = ']' :: behind) :
    readItems item (fuel + 1) done text = .ok ((v :: done).reverse, behind) := by
  simp [readItems, h, hrest, bind, Except.bind]

theorem readItems_of_comma (h : item text = .ok (v, rest))
    (hrest : skipSpace rest = ',' :: behind) :
    readItems item (fuel + 1) done text =
      readItems item fuel (v :: done) (skipSpace behind) := by
  simp [readItems, h, hrest, bind, Except.bind]

theorem readItems_of_other (h : item text = .ok (v, rest))
    (hclose : ∀ behind, skipSpace rest ≠ ']' :: behind)
    (hcomma : ∀ behind, skipSpace rest ≠ ',' :: behind) :
    readItems item (fuel + 1) done text = .error (.fault .expectingComma (skipSpace rest)) := by
  simp [readItems, h, bind, Except.bind]

end

section
variable {done : List (String × Json)} {name : String} {value : List Char}

theorem readMembers_of_name_error (h : readName text = .error failure) :
    readMembers item (fuel + 1) done text = .error failure := by
  simp [readMembers, h, bind, Except.bind]

theorem readMembers_of_error (hname : readName text = .ok (name, value))
    (h : item value = .error failure) :
    readMembers item (fuel + 1) done text = .error failure := by
  simp [readMembers, hname, h, bind, Except.bind]

theorem readMembers_of_close (hname : readName text = .ok (name, value))
    (h : item value = .ok (v, rest)) (hrest : skipSpace rest = '}' :: behind) :
    readMembers item (fuel + 1) done text = .ok (((name, v) :: done).reverse, behind) := by
  simp [readMembers, hname, h, hrest, bind, Except.bind]

theorem readMembers_of_comma (hname : readName text = .ok (name, value))
    (h : item value = .ok (v, rest)) (hrest : skipSpace rest = ',' :: behind) :
    readMembers item (fuel + 1) done text =
      readMembers item fuel ((name, v) :: done) (skipSpace behind) := by
  simp [readMembers, hname, h, hrest, bind, Except.bind]

theorem readMembers_of_other (hname : readName text = .ok (name, value))
    (h : item value = .ok (v, rest)) (hclose : ∀ behind, skipSpace rest ≠ '}' :: behind)
    (hcomma : ∀ behind, skipSpace rest ≠ ',' :: behind) :
    readMembers item (fuel + 1) done text = .error (.fault .expectingComma (skipSpace rest)) := by
  simp [readMembers, hname, h, bind, Except.bind]

end

/-! ### Values -/

variable {size depth : Nat}

theorem readValue_string :
    readValue size depth ('"' :: text) =
      (readString ('"' :: text) 0 [] text).map fun (s, rest) =>
        (.string (String.ofList s), rest) := by
  unfold readValue
  rfl

theorem readValue_array_zero : readValue size 0 ('[' :: text) = .error .tooDeep := by
  unfold readValue
  rfl

theorem readValue_object_zero : readValue size 0 ('{' :: text) = .error .tooDeep := by
  unfold readValue
  rfl

theorem readValue_array_nil (h : skipSpace text = ']' :: behind) :
    readValue size (depth + 1) ('[' :: text) = .ok (.array [], behind) := by
  unfold readValue
  simp [h]

theorem readValue_array (h : ∀ behind, skipSpace text ≠ ']' :: behind) :
    readValue size (depth + 1) ('[' :: text) =
      (readItems (readValue size depth) size [] (skipSpace text)).map fun (items, rest) =>
        (.array items, rest) := by
  rw [readValue.eq_def]
  simp

theorem readValue_object_nil (h : skipSpace text = '}' :: behind) :
    readValue size (depth + 1) ('{' :: text) = .ok (.object [], behind) := by
  unfold readValue
  simp [h]

theorem readValue_object (h : ∀ behind, skipSpace text ≠ '}' :: behind) :
    readValue size (depth + 1) ('{' :: text) =
      (readMembers (readValue size depth) size [] (skipSpace text)).map fun (members, rest) =>
        (.object (Table.ofList members), rest) := by
  rw [readValue.eq_def]
  simp

end

/-! ### What is left of a text -/

/-- What is left of a text from which something was read. -/
structure Behind (rest text : List Char) : Prop where
  suffix : rest <:+ text
  shorter : rest.length < text.length

namespace Behind

variable {a b c : List Char}

theorem cons (x : Char) (h : a <:+ b) : Behind a (x :: b) :=
  ⟨h.trans (List.suffix_cons x b), Nat.lt_succ_of_le h.length_le⟩

theorem trans_suffix (h : Behind a b) (h' : b <:+ c) : Behind a c :=
  ⟨h.suffix.trans h', h.shorter.trans_le h'.length_le⟩

theorem suffix_trans (h : a <:+ b) (h' : Behind b c) : Behind a c :=
  ⟨h.trans h'.suffix, h.length_le.trans_lt h'.shorter⟩

theorem of_word {word : List Char} (hword : word ≠ []) (h : word.isPrefixOf? c = some a) :
    Behind a c := by
  induction word generalizing c with
  | nil => exact absurd rfl hword
  | cons x word ih =>
      cases c with
      | nil => cases h
      | cons y c =>
          rw [List.isPrefixOf?] at h
          split_ifs at h
          cases word with
          | nil =>
              cases h
              exact .cons y List.suffix_rfl
          | cons x' word => exact .cons y (ih (by simp) h).suffix

end Behind

/-- Whatever is read, something of the text is used up for it. -/
def Advances {α : Type} (p : Reader α) : Prop :=
  ∀ text v rest, p text = .ok (v, rest) → Behind rest text

theorem skipSpace_suffix (text : List Char) : skipSpace text <:+ text := List.dropWhile_suffix _

theorem behind_of_skipSpace {c : Char} {text behind : List Char}
    (h : skipSpace text = c :: behind) : Behind behind text :=
  (Behind.cons c List.suffix_rfl).trans_suffix (h ▸ skipSpace_suffix text)

/-- A code unit is refused at the `u` in front of it. -/
theorem unicodeUnit_eq_error {text : List Char} {failure : Failure}
    (h : unicodeUnit text = .error failure) :
    failure = .fault .invalidUnicodeEscape ('u' :: text) := by
  unfold unicodeUnit at h
  split at h <;> cases h
  rfl

theorem lowSurrogate?_eq_error {text : List Char} {failure : Failure}
    (h : lowSurrogate? text = .error failure) :
    ∃ place, failure = .fault .invalidUnicodeEscape place ∧ place <:+ text := by
  unfold lowSurrogate? at h
  split at h
  · rename_i digits
    split_ifs at h
    cases hunit : unicodeUnit digits with
    | error failure' =>
        rw [hunit] at h
        cases h
        exact ⟨_, unicodeUnit_eq_error hunit, List.suffix_cons _ _⟩
    | ok n =>
        rw [hunit] at h
        cases h
  · cases h

/-- What one character does to a string: it ends the string, is at fault, or is passed. -/
theorem readString_cons (start done : List Char) (skip : Nat) (c : Char) (text : List Char) :
    readString start skip done (c :: text) = .ok (done.reverse, text) ∨
      (∃ what place, readString start skip done (c :: text) = .error (.fault what place) ∧
        (place = start ∨ place <:+ c :: text)) ∨
      ∃ skip' done', readString start skip done (c :: text) = readString start skip' done' text := by
  cases skip with
  | succ skip => exact .inr (.inr ⟨skip, done, rfl⟩)
  | zero =>
      simp only [readString]
      split_ifs with hquote hescape hcontrol
      · exact .inl rfl
      · split
        · exact .inr (.inl ⟨_, _, rfl, .inl rfl⟩)
        · rename_i e hhead
          split_ifs with hunit
          · subst hunit
            split
            · rename_i failure hfailure
              rw [unicodeUnit_eq_error hfailure, ← List.eq_cons_of_mem_head? hhead]
              exact .inr (.inl ⟨_, _, rfl, .inr (List.suffix_cons c text)⟩)
            · split_ifs with hhigh
              · split
                · rename_i failure hfailure
                  obtain ⟨place, rfl, hplace⟩ := lowSurrogate?_eq_error hfailure
                  exact .inr (.inl ⟨_, _, rfl, .inr ((hplace.trans (List.drop_suffix 5 text)).trans
                    (List.suffix_cons c text))⟩)
                · exact .inr (.inr ⟨_, _, rfl⟩)
                · exact .inr (.inr ⟨_, _, rfl⟩)
              · exact .inr (.inr ⟨_, _, rfl⟩)
          · split
            · exact .inr (.inr ⟨_, _, rfl⟩)
            · exact .inr (.inl ⟨_, _, rfl, .inr List.suffix_rfl⟩)
      · exact .inr (.inl ⟨_, _, rfl, .inr List.suffix_rfl⟩)
      · exact .inr (.inr ⟨_, _, rfl⟩)

theorem behind_readString {start done text s rest : List Char} {skip : Nat}
    (h : readString start skip done text = .ok (s, rest)) : Behind rest text := by
  induction text generalizing skip done with
  | nil => cases h
  | cons c text ih =>
      rcases readString_cons start done skip c text with
        hends | ⟨what, place, hfault, -⟩ | ⟨skip', done', hpassed⟩
      · cases hends.symm.trans h
        exact .cons c List.suffix_rfl
      · cases hfault.symm.trans h
      · exact .cons c (ih (hpassed.symm.trans h)).suffix

theorem readFraction_suffix (text : List Char) : (readFraction text).2 <:+ text := by
  rw [readFraction.eq_def]
  split
  · split
    · exact List.suffix_rfl
    · exact (List.dropWhile_suffix _).trans (List.suffix_cons _ _)
  · exact List.suffix_rfl

theorem readSign_cases (text : List Char) :
    ∃ sign, (sign = [] ∨ sign = ['+'] ∨ sign = ['-']) ∧ text = sign ++ (readSign text).2 := by
  rw [readSign.eq_def]
  split
  · exact ⟨['-'], .inr (.inr rfl), rfl⟩
  · exact ⟨['+'], .inr (.inl rfl), rfl⟩
  · exact ⟨[], .inl rfl, rfl⟩

theorem readSign_suffix (text : List Char) : (readSign text).2 <:+ text := by
  obtain ⟨sign, -, h⟩ := readSign_cases text
  exact ⟨sign, h.symm⟩

theorem readExponent_suffix (text : List Char) : (readExponent text).2 <:+ text := by
  cases text with
  | nil => exact List.suffix_rfl
  | cons c text =>
      simp only [readExponent]
      split
      · exact ((List.dropWhile_suffix _).trans (readSign_suffix text)).trans (List.suffix_cons c _)
      · exact List.suffix_rfl

theorem behind_readWhole {text whole rest : List Char} (h : readWhole text = some (whole, rest)) :
    Behind rest text := by
  cases text with
  | nil => cases h
  | cons c text =>
      rw [readWhole] at h
      split_ifs at h with hzero hdigit
      · cases h
        exact .cons c List.suffix_rfl
      · cases h
        exact .cons c (List.dropWhile_suffix _)

theorem behind_readUnsigned {negative : Bool} {text rest : List Char} {literal : Literal}
    (h : readUnsigned negative text = some (literal, rest)) : Behind rest text := by
  rw [readUnsigned, Option.map_eq_some_iff] at h
  obtain ⟨⟨whole, behind⟩, hwhole, heq⟩ := h
  simp only [Prod.mk.injEq] at heq
  obtain ⟨-, rfl⟩ := heq
  exact .suffix_trans ((readExponent_suffix _).trans (readFraction_suffix behind))
    (behind_readWhole hwhole)

theorem behind_readLiteral {text rest : List Char} {literal : Literal}
    (h : readLiteral text = some (literal, rest)) : Behind rest text := by
  cases text with
  | nil => simp [readLiteral, readWhole] at h
  | cons c text =>
      by_cases hminus : c = '-'
      · subst hminus
        rw [readLiteral_minus] at h
        exact .cons '-' (behind_readUnsigned h).suffix
      · rw [readLiteral_unsigned hminus] at h
        exact behind_readUnsigned h

theorem advances_readNumber : Advances readNumber := by
  intro text v rest h
  rw [readNumber] at h
  split at h
  · cases h
  · rename_i literal behind hliteral
    split at h
    · cases h
      exact behind_readLiteral hliteral
    · cases h

theorem advances_readScalar : Advances readScalar := by
  intro text v rest h
  rw [readScalar] at h
  split at h
  · rename_i result hword
    obtain ⟨⟨word, value⟩, hmem, hprefix⟩ := List.exists_of_findSome?_eq_some hword
    have hnonempty : word ≠ [] := by
      rintro rfl
      simp [words] at hmem
    obtain ⟨behind, hbehind, rfl⟩ := Option.map_eq_some_iff.1 hprefix
    cases value with
    | error failure => cases h
    | ok value =>
        cases h
        exact .of_word hnonempty hbehind
  · exact advances_readNumber text v rest h

theorem advances_readName : Advances readName := by
  intro text name rest h
  rw [readName.eq_def] at h
  split at h
  · rename_i text
    simp only [bind, Except.bind] at h
    split at h
    · cases h
    · rename_i found hread
      obtain ⟨s, behind⟩ := found
      dsimp only at h
      split at h
      · rename_i rest hcolon
        cases h
        exact .cons '"' (((skipSpace_suffix _).trans (behind_of_skipSpace hcolon).suffix).trans
          (behind_readString hread).suffix)
      · cases h
  · cases h

section
variable {item : Reader Json}

theorem advances_readItems (hitem : Advances item) (fuel : Nat) (done : List Json) :
    Advances (readItems item fuel done) := by
  induction fuel generalizing done with
  | zero =>
      intro text items rest h
      cases h
  | succ fuel ih =>
      intro text items rest h
      cases hread : item text with
      | error failure =>
          rw [readItems_of_error hread] at h
          cases h
      | ok found =>
          obtain ⟨v, behind⟩ := found
          have hbehind := hitem text v behind hread
          rcases delimiter_cases ']' (skipSpace behind) with
            ⟨more, hclose⟩ | ⟨more, hcomma⟩ | ⟨hclose, hcomma⟩
          · rw [readItems_of_close hread hclose] at h
            cases h
            exact .suffix_trans (behind_of_skipSpace hclose).suffix hbehind
          · rw [readItems_of_comma hread hcomma] at h
            have hmore := (ih (v :: done) _ _ _ h).trans_suffix (skipSpace_suffix more)
            exact .suffix_trans (hmore.suffix.trans (behind_of_skipSpace hcomma).suffix) hbehind
          · rw [readItems_of_other hread hclose hcomma] at h
            cases h

theorem advances_readMembers (hitem : Advances item) (fuel : Nat) (done : List (String × Json)) :
    Advances (readMembers item fuel done) := by
  induction fuel generalizing done with
  | zero =>
      intro text members rest h
      cases h
  | succ fuel ih =>
      intro text members rest h
      cases hname : readName text with
      | error failure =>
          rw [readMembers_of_name_error hname] at h
          cases h
      | ok named =>
          obtain ⟨name, value⟩ := named
          have hvalue := advances_readName text name value hname
          cases hread : item value with
          | error failure =>
              rw [readMembers_of_error hname hread] at h
              cases h
          | ok found =>
              obtain ⟨v, behind⟩ := found
              have hbehind := (hitem value v behind hread).trans_suffix hvalue.suffix
              rcases delimiter_cases '}' (skipSpace behind) with
                ⟨more, hclose⟩ | ⟨more, hcomma⟩ | ⟨hclose, hcomma⟩
              · rw [readMembers_of_close hname hread hclose] at h
                cases h
                exact .suffix_trans (behind_of_skipSpace hclose).suffix hbehind
              · rw [readMembers_of_comma hname hread hcomma] at h
                have hmore := (ih ((name, v) :: done) _ _ _ h).trans_suffix (skipSpace_suffix more)
                exact .suffix_trans (hmore.suffix.trans (behind_of_skipSpace hcomma).suffix)
                  hbehind
              · rw [readMembers_of_other hname hread hclose hcomma] at h
                cases h

end

theorem behind_of_map {α β : Type} {answer : Except Failure (α × List Char)} (f : α → β)
    {text rest : List Char} {v : β} (hanswer : ∀ a rest, answer = .ok (a, rest) → Behind rest text)
    (h : (answer.map fun (a, rest) => (f a, rest)) = .ok (v, rest)) : Behind rest text := by
  cases answer with
  | error failure => cases h
  | ok found =>
      cases h
      exact hanswer _ _ rfl

/-- Strings, numbers and words. -/
theorem behind_readValue_leaf {size depth : Nat} {c : Char} {text rest : List Char} {v : Json}
    (harray : c ≠ '[') (hobject : c ≠ '{')
    (h : readValue size depth (c :: text) = .ok (v, rest)) : Behind rest (c :: text) := by
  by_cases hquote : c = '"'
  · subst hquote
    rw [readValue_string] at h
    exact .cons '"' (behind_of_map (fun s => string (String.ofList s))
      (fun _ _ => behind_readString) h).suffix
  · rw [readValue_scalar hquote harray hobject] at h
    exact advances_readScalar _ _ _ h

theorem advances_readValue (size depth : Nat) : Advances (readValue size depth) := by
  induction depth with
  | zero =>
      intro text v rest h
      cases text with
      | nil => exact absurd h readValue_nil
      | cons c text =>
          refine behind_readValue_leaf ?_ ?_ h
          · rintro rfl
            rw [readValue_array_zero] at h
            cases h
          · rintro rfl
            rw [readValue_object_zero] at h
            cases h
  | succ depth ih =>
      intro text v rest h
      cases text with
      | nil => exact absurd h readValue_nil
      | cons c text =>
          by_cases harray : c = '['
          · subst harray
            by_cases hempty : ∃ behind, skipSpace text = ']' :: behind
            · obtain ⟨behind, hempty⟩ := hempty
              rw [readValue_array_nil hempty] at h
              cases h
              exact .cons '[' (behind_of_skipSpace hempty).suffix
            · rw [readValue_array (not_exists.1 hempty)] at h
              have hitems := behind_of_map array (advances_readItems ih size [] _) h
              exact .cons '[' (hitems.suffix.trans (skipSpace_suffix text))
          by_cases hobject : c = '{'
          · subst hobject
            by_cases hempty : ∃ behind, skipSpace text = '}' :: behind
            · obtain ⟨behind, hempty⟩ := hempty
              rw [readValue_object_nil hempty] at h
              cases h
              exact .cons '{' (behind_of_skipSpace hempty).suffix
            · rw [readValue_object (not_exists.1 hempty)] at h
              have hmembers := behind_of_map (fun members => object (Table.ofList members))
                (advances_readMembers ih size [] _) h
              exact .cons '{' (hmembers.suffix.trans (skipSpace_suffix text))
          exact behind_readValue_leaf harray hobject h

end Gltf.Json
