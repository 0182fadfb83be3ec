import Gltf.Proofs.Json.LongIntegers
import Gltf.Proofs.Text.Utf8
import Mathlib

/-!
Where documents are at fault. A reader finds its faults in the text it was given, so the offset of a
fault counts the bytes of the text before it; bytes that are no text are at fault behind the longest
beginning that is one. Either way the bytes before the offset are a text, which the byte order mark
belongs to.
-/

namespace Gltf.Json

/-! ### Faults of readers -/

/-- Whatever is at fault, what is left from there on is an end of the text. -/
def FaultsInside {α : Type} (p : Reader α) : Prop :=
  ∀ text what place, p text = .error (.fault what place) → place <:+ text

theorem fault_readString {start done text place : List Char} {skip : Nat} {what : Fault}
    (htext : text <:+ start) (h : readString start skip done text = .error (.fault what place)) :
    place <:+ start := by
  induction text generalizing skip done with
  | nil =>
      cases h
      exact List.suffix_rfl
  | cons c text ih =>
      rcases readString_cons start done skip c text with
        hends | ⟨what', place', hfault, hplace⟩ | ⟨skip', done', hpassed⟩
      · cases hends.symm.trans h
      · cases hfault.symm.trans h
        rcases hplace with rfl | hplace
        · exact List.suffix_rfl
        · exact hplace.trans htext
      · exact ih ((List.suffix_cons c text).trans htext) (hpassed.symm.trans h)

theorem faultsInside_readNumber : FaultsInside readNumber := by
  intro text what place h
  rw [readNumber] at h
  split at h
  · cases h
    exact List.suffix_rfl
  · split at h
    · cases h
    · rename_i failure hfailure
      obtain ⟨rfl, -⟩ := toNumber_eq_error_iff.1 hfailure
      cases h

theorem readWord?_ne_fault (text : List Char) (what : Fault) (place : List Char) :
    readWord? text ≠ some (.error (.fault what place)) := by
  intro h
  obtain ⟨⟨word, value⟩, hmem, hword⟩ := List.exists_of_findSome?_eq_some h
  obtain ⟨behind, -, hvalue⟩ := Option.map_eq_some_iff.1 hword
  rw [map_eq_error_iff] at hvalue
  subst hvalue
  simp [words] at hmem

theorem faultsInside_readScalar : FaultsInside readScalar := by
  intro text what place h
  rw [readScalar] at h
  split at h
  · rename_i hword
    subst h
    exact absurd hword (readWord?_ne_fault text what place)
  · exact faultsInside_readNumber text what place h

theorem faultsInside_readName : FaultsInside readName := by
  intro text what place h
  rw [readName.eq_def] at h
  split at h
  · rename_i text
    simp only [bind, Except.bind] at h
    split at h
    · rename_i failure hfailure
      cases h
      exact fault_readString (List.suffix_cons _ _) hfailure
    · rename_i found hread
      obtain ⟨s, behind⟩ := found
      dsimp only at h
      split at h
      · cases h
      · cases h
        exact ((skipSpace_suffix behind).trans (behind_readString hread).suffix).trans
          (List.suffix_cons _ _)
  · cases h
    exact List.suffix_rfl

section
variable {item : Reader Json}

theorem faultsInside_readItems (hitem : Advances item) (hfaults : FaultsInside item) (fuel : Nat)
    (done : List Json) : FaultsInside (readItems item fuel done) := by
  induction fuel generalizing done with
  | zero =>
      intro text what place h
      cases h
      exact List.suffix_rfl
  | succ fuel ih =>
      intro text what place h
      cases hread : item text with
      | error failure =>
          rw [readItems_of_error hread] at h
          cases h
          exact hfaults text what place hread
      | ok found =>
          obtain ⟨v, behind⟩ := found
          have hbehind : behind <:+ text := (hitem text v behind hread).suffix
          rcases delimiter_cases ']' (skipSpace behind) with
            ⟨more, hclose⟩ | ⟨more, hcomma⟩ | ⟨hclose, hcomma⟩
          · rw [readItems_of_close hread hclose] at h
            cases h
          · rw [readItems_of_comma hread hcomma] at h
            have hplace : place <:+ more := (ih _ _ _ _ h).trans (skipSpace_suffix more)
            exact (hplace.trans (behind_of_skipSpace hcomma).suffix).trans hbehind
          · rw [readItems_of_other hread hclose hcomma] at h
            cases h
            exact (skipSpace_suffix behind).trans hbehind

theorem faultsInside_readMembers (hitem : Advances item) (hfaults : FaultsInside item) (fuel : Nat)
    (done : List (String × Json)) : FaultsInside (readMembers item fuel done) := by
  induction fuel generalizing done with
  | zero =>
      intro text what place h
      cases h
      exact List.suffix_rfl
  | succ fuel ih =>
      intro text what place h
      cases hname : readName text with
      | error failure =>
          rw [readMembers_of_name_error hname] at h
          cases h
          exact faultsInside_readName text what place hname
      | ok named =>
          obtain ⟨name, value⟩ := named
          have hvalue : value <:+ text := (advances_readName text name value hname).suffix
          cases hread : item value with
          | error failure =>
              rw [readMembers_of_error hname hread] at h
              cases h
              exact (hfaults value what place hread).trans hvalue
          | ok found =>
              obtain ⟨v, behind⟩ := found
              have hbehind : behind <:+ text := (hitem value v behind hread).suffix.trans hvalue
              rcases delimiter_cases '}' (skipSpace behind) with
                ⟨more, hclose⟩ | ⟨more, hcomma⟩ | ⟨hclose, hcomma⟩
              · rw [readMembers_of_close hname hread hclose] at h
                cases h
              · rw [readMembers_of_comma hname hread hcomma] at h
                have hplace : place <:+ more := (ih _ _ _ _ h).trans (skipSpace_suffix more)
                exact (hplace.trans (behind_of_skipSpace hcomma).suffix).trans hbehind
              · rw [readMembers_of_other hname hread hclose hcomma] at h
                cases h
                exact (skipSpace_suffix behind).trans hbehind

end

/-- Strings, numbers and words. -/
theorem fault_readValue_leaf {size depth : Nat} {c : Char} {text place : List Char} {what : Fault}
    (harray : c ≠ '[') (hobject : c ≠ '{')
    (h : readValue size depth (c :: text) = .error (.fault what place)) : place <:+ c :: text := by
  by_cases hquote : c = '"'
  · subst hquote
    rw [readValue_string, map_eq_error_iff] at h
    exact fault_readString (List.suffix_cons _ _) h
  · rw [readValue_scalar hquote harray hobject] at h
    exact faultsInside_readScalar _ _ _ h

theorem readValue_nil_eq (size depth : Nat) :
    readValue size depth [] = .error (.fault .expectingValue []) := by
  unfold readValue
  rfl

theorem faultsInside_readValue (size depth : Nat) : FaultsInside (readValue size depth) := by
  induction depth with
  | zero =>
      intro text what place h
      cases text with
      | nil =>
          rw [readValue_nil_eq] at h
          cases h
          exact List.suffix_rfl
      | cons c text =>
          refine fault_readValue_leaf ?_ ?_ h
          · rintro rfl
            rw [readValue_array_zero] at h
            cases h
          · rintro rfl
            rw [readValue_object_zero] at h
            cases h
  | succ depth ih =>
      intro text what place h
      cases text with
      | nil =>
          rw [readValue_nil_eq] at h
          cases h
          exact List.suffix_rfl
      | cons c text =>
          have hinside : skipSpace text <:+ c :: text :=
            (skipSpace_suffix text).trans (List.suffix_cons c text)
          by_cases harray : c = '['
          · subst harray
            by_cases hempty : ∃ behind, skipSpace text = ']' :: behind
            · obtain ⟨behind, hempty⟩ := hempty
              rw [readValue_array_nil hempty] at h
              cases h
            · rw [readValue_array (not_exists.1 hempty), map_eq_error_iff] at h
              exact (faultsInside_readItems (advances_readValue size depth) ih _ _ _ _ _ h).trans
                hinside
          by_cases hobject : c = '{'
          · subst hobject
            by_cases hempty : ∃ behind, skipSpace text = '}' :: behind
            · obtain ⟨behind, hempty⟩ := hempty
              rw [readValue_object_nil hempty] at h
              cases h
            · rw [readValue_object (not_exists.1 hempty), map_eq_error_iff] at h
              exact (faultsInside_readMembers (advances_readValue size depth) ih _ _ _ _ _ h).trans
                hinside
          exact fault_readValue_leaf harray hobject h

/-- A text is at fault in one of its places. -/
theorem fault_ofText {text place : List Char} {what : Fault}
    (h : ofText text = .error (.fault what place)) : place <:+ text := by
  rw [ofText] at h
  split_ifs at h
  · cases h
    exact List.suffix_rfl
  · have hinside := skipSpace_suffix text
    cases hread : readValue text.length nestingLimit (skipSpace text) with
    | error failure =>
        rw [hread] at h
        cases h
        exact (faultsInside_readValue _ _ _ _ _ hread).trans hinside
    | ok found =>
        obtain ⟨v, rest⟩ := found
        have hrest : rest <:+ skipSpace text := (advances_readValue _ _ _ _ _ hread).suffix
        rw [hread] at h
        simp only [bind, Except.bind] at h
        split at h
        · cases h
        · cases h
          exact ((skipSpace_suffix rest).trans hrest).trans hinside

/-! ### Documents -/

/-- What a document has in front of its text: a byte order mark if it begins with one. -/
def markOf (bs : Bytes) : Bytes := if byteOrderMark <+: bs then byteOrderMark else []

theorem byteOrderMark_eq : byteOrderMark = Utf8.encode ['\uFEFF'] := by decide

theorem exists_markOf_eq (bs : Bytes) : ∃ mark, markOf bs = Utf8.encode mark := by
  rw [markOf]
  split_ifs
  · exact ⟨_, byteOrderMark_eq⟩
  · exact ⟨[], rfl⟩

theorem markOf_eq (bs : Bytes) :
    markOf bs = if (byteOrderMark.isPrefixOf? bs).isSome then byteOrderMark else [] := by
  simp only [markOf, List.isSome_isPrefixOf?_eq_isPrefixOf, List.isPrefixOf_iff_prefix]

theorem markOf_append (bs : Bytes) : markOf bs ++ unmarked bs = bs := by
  rw [markOf_eq, unmarked]
  cases hmark : byteOrderMark.isPrefixOf? bs with
  | none => rfl
  | some rest => exact List.append_eq_of_isPrefixOf?_eq_some hmark

theorem parse_eq_parseFrom (bs : Bytes) :
    parse bs = parseFrom (markOf bs).length (unmarked bs) := by
  rw [parse, markOf_eq, unmarked]
  cases byteOrderMark.isPrefixOf? bs <;> rfl

theorem parseFrom_of_decode_error {skipped : ℕ} {bs : Bytes} {e : Utf8.Error}
    (h : Utf8.decode bs = .error e) :
    parseFrom skipped bs = .error (.encoding e.problem (skipped + e.offset)) := by
  rw [parseFrom, h]

theorem parseFrom_of_fault {skipped : ℕ} {before rest : List Char} {what : Fault}
    (h : ofText (before ++ rest) = .error (.fault what rest)) :
    parseFrom skipped (Utf8.encode (before ++ rest)) =
      .error (.fault what (skipped + Utf8.size before)) := by
  simp only [parseFrom, Utf8.decode_encode, h, Utf8.size_append, Nat.add_sub_cancel]

/-- What fails at an offset is the decoding of a character or the scanning of the text. -/
theorem exists_of_parseFrom {skipped n : ℕ} {bs : Bytes} {e : ParseError}
    (h : parseFrom skipped bs = .error e) (hn : e.offset? = some n) :
    (∃ e', Utf8.decode bs = .error e' ∧ n = skipped + e'.offset) ∨
      ∃ before rest what, bs = Utf8.encode (before ++ rest) ∧
        ofText (before ++ rest) = .error (.fault what rest) ∧ n = skipped + Utf8.size before := by
  cases hdecode : Utf8.decode bs with
  | error e' =>
      rw [parseFrom_of_decode_error hdecode] at h
      cases h
      exact .inl ⟨e', rfl, (Option.some.inj hn).symm⟩
  | ok text =>
      obtain rfl := Utf8.decode_eq_ok_iff.1 hdecode
      simp only [parseFrom, hdecode] at h
      split at h
      · cases h
      · rename_i what rest hfault
        obtain ⟨before, rfl⟩ := fault_ofText hfault
        cases h
        rw [ParseError.offset?, Utf8.size_append, Nat.add_sub_cancel] at hn
        exact .inr ⟨before, rest, what, rfl, hfault, (Option.some.inj hn).symm⟩
      -- Words for numbers, depth and long integers have no offset.
      all_goals
        cases h
        cases hn

/-! ### Offsets -/

/-- Parsing fails and names an offset. -/
def FailsAt (bs : Bytes) (n : ℕ) : Prop := ∃ e, parse bs = .error e ∧ e.offset? = some n

/-- The document is a text, and scanning it behind its mark comes to a fault that has `n` bytes of
the document before it. -/
def FaultAt (bs : Bytes) (n : ℕ) : Prop :=
  ∃ before rest what, bs = markOf bs ++ Utf8.encode (before ++ rest) ∧
    ofText (before ++ rest) = .error (.fault what rest) ∧ n = (markOf bs).length + Utf8.size before

theorem unmarked_eq_iff {bs body : Bytes} : unmarked bs = body ↔ bs = markOf bs ++ body := by
  nth_rewrite 2 [← markOf_append bs]
  exact List.append_right_inj (markOf bs) |>.symm

theorem isText_unmarked_iff {bs : Bytes} : Utf8.IsText (unmarked bs) ↔ Utf8.IsText bs := by
  obtain ⟨mark, hmark⟩ := exists_markOf_eq bs
  rw [← Utf8.isText_append_iff, ← hmark, markOf_append]

/-- The offset of a character that is none, in the whole document. -/
theorem decode_of_decode_unmarked {bs : Bytes} {e : Utf8.Error}
    (h : Utf8.decode (unmarked bs) = .error e) :
    Utf8.decode bs = .error ⟨e.problem, (markOf bs).length + e.offset⟩ := by
  obtain ⟨mark, hmark⟩ := exists_markOf_eq bs
  nth_rewrite 1 [← markOf_append bs]
  rw [hmark]
  exact Utf8.decode_encode_append_of_error h

theorem failsAt_iff_of_isText {bs : Bytes} {n : ℕ} (hbs : Utf8.IsText bs) :
    FailsAt bs n ↔ FaultAt bs n := by
  simp only [FailsAt, FaultAt, parse_eq_parseFrom, ← unmarked_eq_iff]
  constructor
  · rintro ⟨e, he, hn⟩
    rcases exists_of_parseFrom he hn with ⟨e', hdecode, -⟩ | hfault
    · exact absurd (isText_unmarked_iff.2 hbs) (Utf8.exists_decode_eq_error_iff.1 ⟨e', hdecode⟩)
    · exact hfault
  · rintro ⟨before, rest, what, hbytes, hfault, rfl⟩
    rw [hbytes]
    exact ⟨_, parseFrom_of_fault hfault, rfl⟩

theorem failsAt_iff_of_not_isText {bs : Bytes} {n : ℕ} (hbs : ¬Utf8.IsText bs) :
    FailsAt bs n ↔ IsGreatest {k | k ≤ bs.length ∧ Utf8.IsText (bs.take k)} n := by
  obtain ⟨e, hdecode⟩ := Utf8.exists_decode_eq_error_iff.2 (mt isText_unmarked_iff.1 hbs)
  have hgreatest := Utf8.offset_of_decode (decode_of_decode_unmarked hdecode)
  have hfails : parse bs = .error (.encoding e.problem ((markOf bs).length + e.offset)) := by
    rw [parse_eq_parseFrom, parseFrom_of_decode_error hdecode]
  constructor
  · rintro ⟨e', he', hn⟩
    cases hfails.symm.trans he'
    exact Option.some.inj hn ▸ hgreatest
  · intro hn
    exact ⟨_, hfails, congrArg some (hgreatest.unique hn)⟩

theorem FaultAt.bounds {bs : Bytes} {n : ℕ} (h : FaultAt bs n) :
    (markOf bs).length ≤ n ∧ n ≤ bs.length ∧ Utf8.IsText (bs.take n) := by
  obtain ⟨before, rest, what, hbytes, -, rfl⟩ := h
  obtain ⟨mark, hmark⟩ := exists_markOf_eq bs
  have hwhole : bs = Utf8.encode (mark ++ before) ++ Utf8.encode rest := by
    rw [Utf8.encode_append, ← hmark, List.append_assoc, ← Utf8.encode_append]
    exact hbytes
  have hn : (markOf bs).length + Utf8.size before = (Utf8.encode (mark ++ before)).length := by
    rw [hmark, Utf8.encode_append, List.length_append]
    rfl
  refine ⟨Nat.le_add_right _ _, ?_, mark ++ before, ?_⟩
  · rw [hn, hwhole, List.length_append]
    exact Nat.le_add_right _ _
  · rw [hn, hwhole, List.take_left]

/-- Where parsing fails. If the bytes are a text, it fails at the bytes before the place where
scanning comes to a fault; if not, behind the longest beginning that is a text. The offset is always
one of the document, at a boundary between characters, and not inside its byte order mark. -/
theorem failsAt_iff (bs : Bytes) (n : ℕ) :
    (FailsAt bs n ↔ Utf8.IsText bs ∧ FaultAt bs n ∨
      ¬Utf8.IsText bs ∧ IsGreatest {k | k ≤ bs.length ∧ Utf8.IsText (bs.take k)} n) ∧
    (FailsAt bs n → n ≤ bs.length ∧ Utf8.IsText (bs.take n) ∧
      (byteOrderMark <+: bs → byteOrderMark.length ≤ n)) := by
  by_cases hbs : Utf8.IsText bs
  · rw [failsAt_iff_of_isText hbs]
    refine ⟨by simp [hbs], fun h => ?_⟩
    obtain ⟨hmark, hn, htext⟩ := h.bounds
    refine ⟨hn, htext, fun hmarked => ?_⟩
    rwa [markOf, if_pos hmarked] at hmark
  · rw [failsAt_iff_of_not_isText hbs]
    refine ⟨by simp [hbs], fun h => ⟨h.1.1, h.1.2, fun hmarked => h.2 ⟨hmarked.length_le, ?_⟩⟩⟩
    rw [← List.prefix_iff_eq_take.1 hmarked, byteOrderMark_eq]
    exact ⟨_, rfl⟩

/-- Characters of one to four bytes behind a mark, and a word where a comma is missing. -/
theorem failsAt_iff_mixed :
    let bs := byteOrderMark ++ Utf8.encode "[\"aé€😀\" x]".toList
    FailsAt bs 17 ∧ bs.length = 19 ∧ Utf8.IsText (bs.take 17) := by
  intro bs
  have hfails : FailsAt bs 17 := ⟨.fault .expectingComma 17, rfl, rfl⟩
  exact ⟨hfails, by decide, ((failsAt_iff bs 17).2 hfails).2.1⟩

end Gltf.Json
