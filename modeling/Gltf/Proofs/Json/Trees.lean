import Gltf.Proofs.Json.Containers
import Gltf.Proofs.Json.Numerals
import Gltf.Proofs.Json.Strings
import Mathlib

/-!
The text of a tree is read as its value, within the depth and the number of digits that are read. A
number is read up to where it ends, so the character behind a value matters.
-/

namespace Gltf.Json.Syntax

/-! ### Blanks -/

namespace Space

theorem isSpace_of_mem (w : Space) : ∀ c ∈ w.chars, isSpace c = true := by
  intro c hc
  rcases w.blank c hc with rfl | rfl | rfl | rfl <;> rfl

theorem skipSpace_append (w : Space) (text : List Char) :
    skipSpace (w.chars ++ text) = skipSpace text := by
  rw [skipSpace, List.dropWhile_append_of_pos w.isSpace_of_mem]
  rfl

@[simp] theorem none_chars : Space.none.chars = [] := rfl

/-- The blanks at the head of a text. -/
theorem exists_skipSpace (text : List Char) : ∃ w : Space, text = w.chars ++ skipSpace text := by
  refine ⟨⟨text.takeWhile isSpace, ?_⟩, List.takeWhile_append_dropWhile.symm⟩
  intro c hc
  have hspace := List.mem_takeWhile_imp hc
  simpa only [isSpace, Bool.or_eq_true, beq_iff_eq, or_assoc] using hspace

end Space

theorem skipSpace_cons {c : Char} {text : List Char} (h : isSpace c = false) :
    skipSpace (c :: text) = c :: text := by
  rw [skipSpace, List.dropWhile_cons, h]
  rfl

/-- Where a number ends: at a blank or at one of the characters behind an element. -/
theorem not_goesOn_cons {c : Char} {rest : List Char}
    (h : isSpace c = true ∨ c = ',' ∨ c = ']' ∨ c = '}') : ¬GoesOn (c :: rest) := by
  have hc : isDigit c = false ∧ c ≠ '.' ∧ ¬(c = 'e' ∨ c = 'E') := by
    simp only [isSpace, Bool.or_eq_true, beq_iff_eq, or_assoc] at h
    rcases h with rfl | rfl | rfl | rfl | rfl | rfl | rfl <;> decide
  obtain ⟨hdigit, hpoint, hmark⟩ := hc
  intro hgoes
  cases hgoes with
  | digit h =>
      rw [hdigit] at h
      cases h
  | fraction h => exact hpoint rfl
  | exponent mark signs h => exact hmark mark

theorem not_goesOn_nil : ¬GoesOn [] := nofun

namespace Space

theorem not_goesOn_append (w : Space) {text : List Char} (h : ¬GoesOn text) :
    ¬GoesOn (w.chars ++ text) := by
  cases hchars : w.chars with
  | nil => exact h
  | cons c cs =>
      have hmem : c ∈ w.chars := hchars ▸ List.mem_cons_self
      exact not_goesOn_cons (.inl (w.isSpace_of_mem c hmem))

end Space

/-! ### Words and numbers -/

theorem readWord?_text (n : Numeral) (rest : List Char) : readWord? (n.text ++ rest) = none := by
  obtain ⟨d, ds, hwhole⟩ := n.exists_whole_text
  have hletter (letter : Char) (h : isDigit letter = false) : letter ≠ Nat.digitChar d := by
    rintro rfl
    rw [isDigit_digitChar] at h
    cases h
  rw [Numeral.text, hwhole]
  cases n.negative <;>
    simp (disch := decide) [readWord?, words, List.isPrefixOf?, hletter]

theorem readScalar_text {n : Numeral} (hlong : n.isInteger = true → n.whole.length ≤ digitLimit)
    {rest : List Char} (hends : ¬GoesOn rest) :
    readScalar (n.text ++ rest) = .ok (.number n.value, rest) := by
  rw [readScalar, readWord?_text]
  exact n.readNumber_text hlong hends

/-! ### Names and the order of members -/

theorem readString_quoted {ps : List Piece} {cs : List Char} (h : chars? ps = some cs)
    (start rest : List Char) :
    readString start 0 [] (piecesText ps ++ ['"'] ++ rest) = .ok (cs, rest) := by
  rw [List.append_assoc]
  exact readString_piecesText h start [] rest

theorem readName_text {n : Name} {cs : List Char} (h : chars? n.pieces = some cs)
    (rest : List Char) :
    readName (skipSpace (n.text ++ rest)) = .ok (String.ofList cs, skipSpace rest) := by
  have hstart : skipSpace (n.text ++ rest) =
      '"' :: (piecesText n.pieces ++ ['"'] ++ (n.after.chars ++ ':' :: rest)) := by
    simp only [Name.text, quoted, List.append_assoc, List.cons_append, List.nil_append,
      n.before.skipSpace_append]
    exact skipSpace_cons rfl
  have hcolon : skipSpace (n.after.chars ++ ':' :: rest) = ':' :: rest := by
    rw [n.after.skipSpace_append]
    exact skipSpace_cons rfl
  rw [hstart, readName]
  simp only [readString_quoted h, bind, Except.bind, hcolon]

theorem put_merged (entries : List (String × Json)) (k : String) (v : Json) :
    Table.put (merged entries) k v = merged (entries ++ [(k, v)]) := by
  induction entries with
  | nil => rfl
  | cons entry entries ih =>
      obtain ⟨k', v'⟩ := entry
      rw [List.cons_append, merged, merged, ← ih, Table.get?_put, Table.erase_put, Table.put]
      by_cases h : k' = k
      · simp [h]
      · simp [h, Ne.symm h]

/-- Members that are put one by one. -/
theorem ofList_eq_merged (entries : List (String × Json)) :
    Table.ofList entries = merged entries := by
  induction entries using List.reverseRecOn with
  | nil => rfl
  | append_singleton entries entry ih =>
      rw [← put_merged, ← ih, Table.ofList, List.foldl_append]
      rfl

example : merged [("a", .null), ("b", .null), ("a", .bool true)] =
    [("a", .bool true), ("b", .null)] := rfl

/-! ### The text of a tree is read -/

/-- A value begins with no blank, no end of an array and no mark. -/
theorem Tree.exists_text (t : Tree) :
    ∃ c more, t.text = c :: more ∧ isSpace c = false ∧ c ≠ ']' ∧ c ≠ '\uFEFF' := by
  cases t with
  | null => exact ⟨_, _, rfl, by decide⟩
  | bool b => cases b <;> exact ⟨_, _, rfl, by decide⟩
  | number n =>
      obtain ⟨d, ds, hwhole⟩ := n.exists_whole_text
      rw [Tree.text, Numeral.text, hwhole]
      cases n.negative with
      | true => exact ⟨_, _, rfl, by decide⟩
      | false =>
          have hdigit : ∀ d : Fin 10, isSpace (Nat.digitChar d) = false ∧
              Nat.digitChar d ≠ ']' ∧ Nat.digitChar d ≠ '\uFEFF' := by decide
          exact ⟨_, _, rfl, hdigit d⟩
  | string ps => exact ⟨_, _, rfl, by decide⟩
  | emptyArray inside => exact ⟨_, _, rfl, by decide⟩
  | array items => exact ⟨_, _, rfl, by decide⟩
  | emptyObject inside => exact ⟨_, _, rfl, by decide⟩
  | object members => exact ⟨_, _, rfl, by decide⟩

theorem Tree.skipSpace_text (w : Space) (t : Tree) (rest : List Char) :
    skipSpace (w.chars ++ (t.text ++ rest)) = t.text ++ rest := by
  obtain ⟨c, more, htext, hspace, -⟩ := t.exists_text
  rw [w.skipSpace_append, htext, List.cons_append, skipSpace_cons hspace]

theorem skipSpace_delimiter (w : Space) {c : Char} (rest : List Char)
    (h : c = ',' ∨ c = ']' ∨ c = '}') : skipSpace (w.chars ++ c :: rest) = c :: rest := by
  rw [w.skipSpace_append, skipSpace_cons]
  rcases h with rfl | rfl | rfl <;> rfl

theorem not_goesOn_delimiter (w : Space) {c : Char} (rest : List Char)
    (h : c = ',' ∨ c = ']' ∨ c = '}') : ¬GoesOn (w.chars ++ c :: rest) :=
  w.not_goesOn_append (not_goesOn_cons (.inr h))

/-- An array of items is not read as an empty one. -/
theorem Items.text_ne_close (items : Items) (rest : List Char) :
    ∀ behind, skipSpace (items.text ++ rest) ≠ ']' :: behind := by
  have hitem (w : Space) (t : Tree) (more : List Char) :
      ∀ behind, skipSpace (w.chars ++ (t.text ++ more)) ≠ ']' :: behind := by
    intro behind heq
    obtain ⟨c, more, htext, -, hclose, -⟩ := t.exists_text
    rw [t.skipSpace_text, htext, List.cons_append] at heq
    exact hclose (List.cons.inj heq).1
  cases items with
  | last before item after =>
      rw [Items.text, List.append_assoc, List.append_assoc]
      exact hitem _ _ _
  | next before item after more =>
      rw [Items.text, List.append_assoc, List.append_assoc]
      exact hitem _ _ _

theorem Name.text_ne_close (n : Name) (rest : List Char) :
    ∀ behind, skipSpace (n.text ++ rest) ≠ '}' :: behind := by
  intro behind heq
  simp only [Name.text, quoted, List.append_assoc, List.cons_append, n.before.skipSpace_append] at heq
  rw [skipSpace_cons rfl] at heq
  cases heq

theorem Members.text_ne_close (members : Members) (rest : List Char) :
    ∀ behind, skipSpace (members.text ++ rest) ≠ '}' :: behind := by
  cases members with
  | last name before value after =>
      rw [Members.text, List.append_assoc]
      exact name.text_ne_close _
  | next name before value after more =>
      rw [Members.text, List.append_assoc]
      exact name.text_ne_close _

theorem Items.skipSpace_last (before after : Space) (item : Tree) (text : List Char) :
    skipSpace ((Items.last before item after).text ++ text) =
      item.text ++ (after.chars ++ text) := by
  rw [Items.text, List.append_assoc, List.append_assoc, item.skipSpace_text]

theorem Items.skipSpace_next (before after : Space) (item : Tree) (more : Items)
    (text : List Char) :
    skipSpace ((Items.next before item after more).text ++ text) =
      item.text ++ (after.chars ++ ',' :: (more.text ++ text)) := by
  simp only [Items.text, List.append_assoc, item.skipSpace_text, List.cons_append]

/-- The reader at a value leaves `rest`, whatever is read with it. -/
theorem readValue_text_number {size depth : Nat} {n : Numeral} {rest : List Char}
    (hlong : n.isInteger = true → n.whole.length ≤ digitLimit) (hends : ¬GoesOn rest) :
    readValue size depth (n.text ++ rest) = .ok (.number n.value, rest) := by
  have hhead : ∃ c more, n.text = c :: more ∧ c ≠ '"' ∧ c ≠ '[' ∧ c ≠ '{' := by
    obtain ⟨d, ds, hwhole⟩ := n.exists_whole_text
    rw [Numeral.text, hwhole]
    cases n.negative with
    | true => exact ⟨_, _, rfl, by decide⟩
    | false =>
        have hdigit : ∀ d : Fin 10, Nat.digitChar d ≠ '"' ∧ Nat.digitChar d ≠ '[' ∧
            Nat.digitChar d ≠ '{' := by decide
        exact ⟨_, _, rfl, hdigit d⟩
  obtain ⟨c, more, htext, hquote, harray, hobject⟩ := hhead
  have hscalar := readScalar_text hlong hends
  rw [htext, List.cons_append] at hscalar ⊢
  rw [readValue_scalar hquote harray hobject, hscalar]

theorem readValue_text_string {size depth : Nat} {ps : List Piece} {cs : List Char}
    (h : chars? ps = some cs) (rest : List Char) :
    readValue size depth (quoted ps ++ rest) = .ok (.string (String.ofList cs), rest) := by
  rw [quoted, List.cons_append, readValue_string, readString_quoted h]
  rfl

theorem Members.readName_last {n : Name} {cs : List Char} (h : chars? n.pieces = some cs)
    (before after : Space) (value : Tree) (text : List Char) :
    readName (skipSpace ((Members.last n before value after).text ++ text)) =
      .ok (String.ofList cs, value.text ++ (after.chars ++ text)) := by
  rw [Members.text, List.append_assoc, List.append_assoc, List.append_assoc, readName_text h,
    value.skipSpace_text]

theorem Members.readName_next {n : Name} {cs : List Char} (h : chars? n.pieces = some cs)
    (before after : Space) (value : Tree) (more : Members) (text : List Char) :
    readName (skipSpace ((Members.next n before value after more).text ++ text)) =
      .ok (String.ofList cs, value.text ++ (after.chars ++ ',' :: (more.text ++ text))) := by
  simp only [Members.text, List.append_assoc, List.cons_append, readName_text h,
    value.skipSpace_text]

/-- An element has a text, so the fuel lasts for it and for what is behind it. -/
theorem exists_fuel {t : Tree} {before after : List Char} {fuel : Nat}
    (h : (before ++ (t.text ++ after)).length ≤ fuel) :
    ∃ fuel', fuel = fuel' + 1 ∧ after.length ≤ fuel' ∧ t.text.length ≤ fuel := by
  obtain ⟨c, more, htext, -⟩ := t.exists_text
  simp only [List.length_append, htext, List.length_cons] at h ⊢
  obtain ⟨fuel, rfl⟩ : ∃ fuel', fuel = fuel' + 1 := Nat.exists_eq_add_of_le' (by omega)
  exact ⟨fuel, rfl, by omega, by omega⟩

theorem length_le_of_comma {before more : List Char} {fuel : Nat}
    (h : (before ++ ',' :: more).length ≤ fuel) : more.length ≤ fuel := by
  rw [List.length_append, List.length_cons] at h
  omega

mutual

theorem Tree.readValue_text {size : Nat} (t : Tree) {depth : Nat} {v : Json} {rest : List Char}
    (hdepth : t.depth ≤ depth) (hlong : t.longestInteger ≤ digitLimit) (hvalue : t.value? = some v)
    (hends : ¬GoesOn rest) (hsize : t.text.length ≤ size) :
    readValue size depth (t.text ++ rest) = .ok (v, rest) := by
  match t with
  | .null =>
      cases hvalue
      exact readValue_scalar (by decide) (by decide) (by decide)
  | .bool true =>
      cases hvalue
      exact readValue_scalar (by decide) (by decide) (by decide)
  | .bool false =>
      cases hvalue
      exact readValue_scalar (by decide) (by decide) (by decide)
  | .number n =>
      cases hvalue
      refine readValue_text_number ?_ hends
      intro hinteger
      rwa [Tree.longestInteger, if_pos hinteger] at hlong
  | .string ps =>
      obtain ⟨cs, hcs, rfl⟩ := Option.map_eq_some_iff.1 hvalue
      exact readValue_text_string hcs rest
  | .emptyArray inside =>
      cases hvalue
      obtain ⟨depth, rfl⟩ := Nat.exists_eq_add_of_le' hdepth
      rw [Tree.text, List.cons_append, List.append_assoc]
      exact readValue_array_nil (skipSpace_delimiter inside rest (.inr (.inl rfl)))
  | .array items =>
      obtain ⟨vs, hvs, rfl⟩ := Option.map_eq_some_iff.1 hvalue
      obtain ⟨depth, rfl⟩ := Nat.exists_eq_add_of_le' (le_trans (Nat.le_add_left 1 _) hdepth)
      have hshort : items.text.length ≤ size := by
        rw [Tree.text, List.length_cons, List.length_append] at hsize
        omega
      have hitems : readItems (readValue size depth) size [] (skipSpace (items.text ++ ']' :: rest)) =
          .ok ([].reverse ++ vs, rest) :=
        items.readItems_text (Nat.le_of_succ_le_succ hdepth) hlong hvs hshort le_rfl
      rw [Tree.text, List.cons_append, List.append_assoc, readValue_array (items.text_ne_close _),
        List.singleton_append, hitems]
      rfl
  | .emptyObject inside =>
      cases hvalue
      obtain ⟨depth, rfl⟩ := Nat.exists_eq_add_of_le' hdepth
      rw [Tree.text, List.cons_append, List.append_assoc]
      exact readValue_object_nil (skipSpace_delimiter inside rest (.inr (.inr rfl)))
  | .object members =>
      obtain ⟨entries, hentries, rfl⟩ := Option.map_eq_some_iff.1 hvalue
      obtain ⟨depth, rfl⟩ := Nat.exists_eq_add_of_le' (le_trans (Nat.le_add_left 1 _) hdepth)
      have hshort : members.text.length ≤ size := by
        rw [Tree.text, List.length_cons, List.length_append] at hsize
        omega
      have hmembers : readMembers (readValue size depth) size []
          (skipSpace (members.text ++ '}' :: rest)) = .ok ([].reverse ++ entries, rest) :=
        members.readMembers_text (Nat.le_of_succ_le_succ hdepth) hlong hentries hshort le_rfl
      rw [Tree.text, List.cons_append, List.append_assoc,
        readValue_object (members.text_ne_close _), List.singleton_append, hmembers,
        ← ofList_eq_merged]
      rfl

theorem Items.readItems_text {size : Nat} (items : Items) {depth fuel : Nat} {vs done : List Json}
    {rest : List Char} (hdepth : items.depth ≤ depth) (hlong : items.longestInteger ≤ digitLimit)
    (hvalues : items.values? = some vs) (hfuel : items.text.length ≤ fuel) (hsize : fuel ≤ size) :
    readItems (readValue size depth) fuel done (skipSpace (items.text ++ ']' :: rest)) =
      .ok (done.reverse ++ vs, rest) := by
  match items with
  | .last before item after =>
      obtain ⟨v, hv, rfl⟩ := Option.map_eq_some_iff.1 hvalues
      obtain ⟨fuel, rfl, -, hshort⟩ := exists_fuel hfuel
      have hread := item.readValue_text hdepth hlong hv
        (not_goesOn_delimiter after rest (.inr (.inl rfl))) (hshort.trans hsize)
      have hclose := skipSpace_delimiter after rest (.inr (.inl rfl))
      rw [Items.skipSpace_last, readItems_of_close hread hclose, List.reverse_cons]
  | .next before item after more =>
      obtain ⟨v, vs, hv, hvs, rfl⟩ := Items.values?_next.1 hvalues
      rw [Items.depth, max_le_iff] at hdepth
      rw [Items.longestInteger, max_le_iff] at hlong
      obtain ⟨fuel, rfl, hbehind, hshort⟩ := exists_fuel hfuel
      have hread := item.readValue_text hdepth.1 hlong.1 hv
        (not_goesOn_delimiter after (more.text ++ ']' :: rest) (.inl rfl)) (hshort.trans hsize)
      have hcomma := skipSpace_delimiter after (more.text ++ ']' :: rest) (.inl rfl)
      rw [Items.skipSpace_next, readItems_of_comma hread hcomma,
        more.readItems_text hdepth.2 hlong.2 hvs (length_le_of_comma hbehind)
          (Nat.le_of_succ_le hsize),
        List.reverse_cons, List.append_assoc, List.singleton_append]

theorem Members.readMembers_text {size : Nat} (members : Members) {depth fuel : Nat}
    {entries done : List (String × Json)} {rest : List Char} (hdepth : members.depth ≤ depth)
    (hlong : members.longestInteger ≤ digitLimit) (hentries : members.entries? = some entries)
    (hfuel : members.text.length ≤ fuel) (hsize : fuel ≤ size) :
    readMembers (readValue size depth) fuel done (skipSpace (members.text ++ '}' :: rest)) =
      .ok (done.reverse ++ entries, rest) := by
  match members with
  | .last name before value after =>
      obtain ⟨cs, v, hcs, hv, rfl⟩ := Members.entries?_last.1 hentries
      rw [Members.text, ← List.append_assoc] at hfuel
      obtain ⟨fuel, rfl, -, hshort⟩ := exists_fuel hfuel
      have hread := value.readValue_text hdepth hlong hv
        (not_goesOn_delimiter after rest (.inr (.inr rfl))) (hshort.trans hsize)
      have hclose := skipSpace_delimiter after rest (.inr (.inr rfl))
      rw [readMembers_of_close (Members.readName_last hcs _ _ _ _) hread hclose, List.reverse_cons]
  | .next name before value after more =>
      obtain ⟨cs, v, entries, hcs, hv, hmore, rfl⟩ := Members.entries?_next.1 hentries
      rw [Members.depth, max_le_iff] at hdepth
      rw [Members.longestInteger, max_le_iff] at hlong
      rw [Members.text, ← List.append_assoc] at hfuel
      obtain ⟨fuel, rfl, hbehind, hshort⟩ := exists_fuel hfuel
      have hread := value.readValue_text hdepth.1 hlong.1 hv
        (not_goesOn_delimiter after (more.text ++ '}' :: rest) (.inl rfl)) (hshort.trans hsize)
      have hcomma := skipSpace_delimiter after (more.text ++ '}' :: rest) (.inl rfl)
      rw [readMembers_of_comma (Members.readName_next hcs _ _ _ _ _) hread hcomma,
        more.readMembers_text hdepth.2 hlong.2 hmore (length_le_of_comma hbehind)
          (Nat.le_of_succ_le hsize),
        List.reverse_cons, List.append_assoc, List.singleton_append]

end

end Gltf.Json.Syntax
