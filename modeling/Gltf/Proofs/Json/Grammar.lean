import Gltf.Proofs.Json.Derivations
import Gltf.Proofs.Text.Utf8
import Mathlib

/-!
The parser and the grammar: bytes are parsed to a value exactly if they are the UTF-8 of a JSON text
with this value, behind at most one byte order mark. The parser has bounds on the depth and on the
digits of an integer, and replaces lone surrogates, so this is about texts without such.
-/

namespace Gltf.Json.Syntax

/-! ### Values of trees -/

theorem Paired.exists_chars {ps : List Piece} (h : Paired ps) : ∃ cs, chars? ps = some cs := by
  induction h with
  | nil => exact ⟨_, rfl⟩
  | @plain c ps quotable _ ih =>
      obtain ⟨cs, hcs⟩ := ih
      exact ⟨c :: cs, by rw [chars?, hcs]; rfl⟩
  | @escape ps e _ ih =>
      obtain ⟨cs, hcs⟩ := ih
      exact ⟨e.char :: cs, by rw [chars?, hcs]; rfl⟩
  | @unit u ps high low _ ih =>
      obtain ⟨cs, hcs⟩ := ih
      exact ⟨Char.ofNat u.value :: cs, by rw [chars?_unit high low, hcs]; rfl⟩
  | @pair u v ps high low _ ih =>
      obtain ⟨cs, hcs⟩ := ih
      exact ⟨joined u v :: cs, by rw [chars?_pair high low, hcs]; rfl⟩

mutual

/-- A tree without lone surrogates has a value. -/
theorem Tree.exists_value (t : Tree) (h : ∀ ps ∈ t.strings, Paired ps) :
    ∃ v, t.value? = some v := by
  match t with
  | .null => exact ⟨_, rfl⟩
  | .bool b => exact ⟨_, rfl⟩
  | .number n => exact ⟨_, rfl⟩
  | .string ps =>
      obtain ⟨cs, hcs⟩ := (h ps List.mem_cons_self).exists_chars
      exact ⟨.string (String.ofList cs), by rw [Tree.value?, hcs]; rfl⟩
  | .emptyArray inside => exact ⟨_, rfl⟩
  | .array items =>
      obtain ⟨vs, hvs⟩ := items.exists_values h
      exact ⟨.array vs, by rw [Tree.value?, hvs]; rfl⟩
  | .emptyObject inside => exact ⟨_, rfl⟩
  | .object members =>
      obtain ⟨entries, hentries⟩ := members.exists_entries h
      exact ⟨.object (merged entries), by rw [Tree.value?, hentries]; rfl⟩

theorem Items.exists_values (items : Items) (h : ∀ ps ∈ items.strings, Paired ps) :
    ∃ vs, items.values? = some vs := by
  match items with
  | .last before item after =>
      obtain ⟨v, hv⟩ := item.exists_value h
      exact ⟨[v], by rw [Items.values?, hv]; rfl⟩
  | .next before item after more =>
      obtain ⟨v, hv⟩ := item.exists_value fun ps hps => h ps (List.mem_append_left _ hps)
      obtain ⟨vs, hvs⟩ := more.exists_values fun ps hps => h ps (List.mem_append_right _ hps)
      exact ⟨v :: vs, Items.values?_next.2 ⟨v, vs, hv, hvs, rfl⟩⟩

theorem Members.exists_entries (members : Members) (h : ∀ ps ∈ members.strings, Paired ps) :
    ∃ entries, members.entries? = some entries := by
  match members with
  | .last name before value after =>
      rw [Members.strings, List.forall_mem_cons] at h
      obtain ⟨cs, hcs⟩ := h.1.exists_chars
      obtain ⟨v, hv⟩ := value.exists_value h.2
      exact ⟨[(String.ofList cs, v)], Members.entries?_last.2 ⟨cs, v, hcs, hv, rfl⟩⟩
  | .next name before value after more =>
      rw [Members.strings, List.forall_mem_cons, List.forall_mem_append] at h
      obtain ⟨cs, hcs⟩ := h.1.exists_chars
      obtain ⟨v, hv⟩ := value.exists_value h.2.1
      obtain ⟨entries, hentries⟩ := more.exists_entries h.2.2
      exact ⟨(String.ofList cs, v) :: entries,
        Members.entries?_next.2 ⟨cs, v, entries, hcs, hv, hentries, rfl⟩⟩

end

/-! ### Documents -/

theorem Document.head_ne_mark (d : Document) : d.text.head? ≠ some '\uFEFF' := by
  intro hhead
  obtain ⟨c, more, htext, -, -, hmark⟩ := d.tree.exists_text
  cases hbefore : d.before.chars with
  | nil =>
      rw [Document.text, hbefore, htext] at hhead
      exact hmark (Option.some.inj hhead)
  | cons b bs =>
      rw [Document.text, hbefore] at hhead
      have hspace := d.before.isSpace_of_mem b (hbefore ▸ List.mem_cons_self)
      rw [Option.some.inj hhead] at hspace
      cases hspace

/-- A document is read as its value. -/
theorem Document.ofText_text (d : Document) {v : Json} (hdepth : d.tree.depth ≤ nestingLimit)
    (hlong : d.tree.longestInteger ≤ digitLimit) (hvalue : d.tree.value? = some v) :
    ofText d.text = .ok v := by
  have hends : ¬GoesOn d.after.chars := by
    rw [← List.append_nil d.after.chars]
    exact d.after.not_goesOn_append not_goesOn_nil
  have hblank : skipSpace d.after.chars = [] := by
    rw [← List.append_nil d.after.chars, d.after.skipSpace_append]
    rfl
  have hsize : d.tree.text.length ≤ d.text.length := by
    rw [Document.text, List.length_append, List.length_append]
    omega
  have hread := d.tree.readValue_text hdepth hlong hvalue hends hsize
  have hstart : skipSpace d.text = d.tree.text ++ d.after.chars := d.tree.skipSpace_text _ _
  rw [ofText, if_neg d.head_ne_mark, hstart, hread]
  simp only [bind, Except.bind, hblank]

theorem exists_document_of_ofText {text : List Char} {v : Json} (h : ofText text = .ok v) :
    ∃ d : Document, text = d.text ∧ ∀ v', d.tree.value? = some v' → v = v' := by
  rw [ofText] at h
  split_ifs at h
  cases hread : readValue text.length nestingLimit (skipSpace text) with
  | error failure =>
      rw [hread] at h
      cases h
  | ok found =>
      obtain ⟨v', rest⟩ := found
      rw [hread] at h
      simp only [bind, Except.bind] at h
      split at h
      · rename_i hrest
        cases h
        obtain ⟨t, htext, hvalue⟩ := derived_of_readValue hread
        obtain ⟨before, hbefore⟩ := Space.exists_skipSpace text
        obtain ⟨after, hafter⟩ := Space.exists_skipSpace rest
        rw [hrest, List.append_nil] at hafter
        refine ⟨⟨before, t, after⟩, ?_, hvalue⟩
        rw [Document.text, ← hafter, ← htext]
        exact hbefore
      · cases h

/-! ### Bytes -/

theorem parseFrom_eq_ok_iff {skipped : Nat} {bs : Bytes} {v : Json} :
    parseFrom skipped bs = .ok v ↔ ∃ text, bs = Utf8.encode text ∧ ofText text = .ok v := by
  have hdecode : parseFrom skipped bs = .ok v ↔
      ∃ text, Utf8.decode bs = .ok text ∧ ofText text = .ok v := by
    rw [parseFrom]
    cases Utf8.decode bs with
    | error e => simp
    | ok text =>
        cases htext : ofText text with
        | ok value => simp [htext]
        | error failure => cases failure <;> simp [htext]
  simp only [hdecode, Utf8.decode_eq_ok_iff]

/-- A text that begins with the bytes of a mark begins with the mark. -/
theorem head_of_encode {text : List Char} {rest : Bytes}
    (h : byteOrderMark ++ rest = Utf8.encode text) : text.head? = some '\uFEFF' := by
  obtain ⟨more, rfl⟩ : ∃ more, text = ['\uFEFF'].reverse ++ more :=
    decodeFrom_eq_append (Utf8.decode_eq_ok_iff.2 h)
  rfl

theorem parse_eq_ok_iff {bs : Bytes} {v : Json} :
    parse bs = .ok v ↔
      ∃ text, (bs = Utf8.encode text ∨ bs = byteOrderMark ++ Utf8.encode text) ∧
        ofText text = .ok v := by
  cases hmark : byteOrderMark.isPrefixOf? bs with
  | none =>
      have hunmarked (rest : Bytes) : bs ≠ byteOrderMark ++ rest := by
        intro heq
        rw [List.isPrefixOf?_eq_some_iff_append_eq.2 heq.symm] at hmark
        cases hmark
      simp only [parse, hmark, parseFrom_eq_ok_iff, hunmarked, or_false]
  | some rest =>
      obtain rfl := List.append_eq_of_isPrefixOf?_eq_some hmark
      simp only [parse, hmark, parseFrom_eq_ok_iff]
      constructor
      · rintro ⟨text, rfl, htext⟩
        exact ⟨text, .inr rfl, htext⟩
      · rintro ⟨text, hbytes | hbytes, htext⟩
        · rw [ofText, if_pos (head_of_encode hbytes)] at htext
          cases htext
        · exact ⟨text, List.append_cancel_left hbytes, htext⟩

/-! ### The grammar -/

/-- Within the bounds of the parser, and with each surrogate in a pair. -/
structure Tree.Readable (t : Tree) : Prop where
  depth : t.depth ≤ nestingLimit
  integers : t.longestInteger ≤ digitLimit
  surrogates : ∀ ps ∈ t.strings, Paired ps

/-- What a text bounds: depth and digits take characters, and strings consist of some. -/
structure Bounds (text : List Char) (depth digits : Nat) (strings : List (List Piece)) : Prop where
  depth : depth ≤ text.length
  digits : digits ≤ text.length
  strings : ∀ ps ∈ strings, piecesText ps ⊆ text

namespace Bounds

variable {text text' : List Char} {depth depth' digits digits' : Nat}
  {strings strings' : List (List Piece)}

theorem of_none (text : List Char) : Bounds text 0 0 [] :=
  ⟨Nat.zero_le _, Nat.zero_le _, nofun⟩

theorem within (h : Bounds text depth digits strings) (hinside : text <:+: text') :
    Bounds text' depth digits strings :=
  ⟨h.depth.trans hinside.length_le, h.digits.trans hinside.length_le,
    fun ps hps => List.Subset.trans (h.strings ps hps) hinside.subset⟩

theorem enclosed (h : Bounds text depth digits strings) (first last : Char) :
    Bounds (first :: (text ++ [last])) (depth + 1) digits strings := by
  have hbehind : Bounds (first :: (text ++ [last])) depth digits strings :=
    h.within ⟨[first], [last], rfl⟩
  refine ⟨?_, hbehind.digits, hbehind.strings⟩
  have hdepth := h.depth
  rw [List.length_cons, List.length_append]
  omega

theorem join (h : Bounds text depth digits strings) (h' : Bounds text depth' digits' strings') :
    Bounds text (max depth depth') (max digits digits') (strings ++ strings') :=
  ⟨max_le h.depth h'.depth, max_le h.digits h'.digits,
    List.forall_mem_append.2 ⟨h.strings, h'.strings⟩⟩

theorem named (h : Bounds text depth digits strings) (name : Name) :
    Bounds (name.text ++ text) depth digits (name.pieces :: strings) := by
  have hbehind : Bounds (name.text ++ text) depth digits strings :=
    h.within ⟨name.text, [], List.append_nil _⟩
  refine ⟨hbehind.depth, hbehind.digits, List.forall_mem_cons.2 ⟨?_, hbehind.strings⟩⟩
  intro c hc
  simp [Name.text, quoted, hc]

end Bounds

mutual

theorem Tree.bounds (t : Tree) : Bounds t.text t.depth t.longestInteger t.strings := by
  match t with
  | .null => exact .of_none _
  | .bool b => exact .of_none _
  | .number n =>
      refine ⟨Nat.zero_le _, ?_, nofun⟩
      simp only [Tree.longestInteger, Tree.text, Numeral.text, List.length_append,
        Digits.length_text]
      split_ifs <;> omega
  | .string ps =>
      refine ⟨Nat.zero_le _, Nat.zero_le _, ?_⟩
      intro ps' hps c hc
      rw [List.mem_singleton.1 hps] at hc
      simp [Tree.text, quoted, hc]
  | .emptyArray inside => exact (Bounds.of_none inside.chars).enclosed '[' ']'
  | .array items => exact items.bounds.enclosed '[' ']'
  | .emptyObject inside => exact (Bounds.of_none inside.chars).enclosed '{' '}'
  | .object members => exact members.bounds.enclosed '{' '}'

theorem Items.bounds (items : Items) :
    Bounds items.text items.depth items.longestInteger items.strings := by
  match items with
  | .last before item after =>
      exact item.bounds.within ⟨before.chars, after.chars, List.append_assoc _ _ _⟩
  | .next before item after more =>
      refine (item.bounds.within ?_).join (more.bounds.within ?_)
      · exact ⟨before.chars, after.chars ++ ',' :: more.text, List.append_assoc _ _ _⟩
      · exact ⟨before.chars ++ item.text ++ after.chars ++ [','], [], by simp [Items.text]⟩

theorem Members.bounds (members : Members) :
    Bounds members.text members.depth members.longestInteger members.strings := by
  match members with
  | .last name before value after =>
      refine Bounds.named (value.bounds.within ?_) name
      exact ⟨before.chars, after.chars, List.append_assoc _ _ _⟩
  | .next name before value after more =>
      refine Bounds.named ((value.bounds.within ?_).join (more.bounds.within ?_)) name
      · exact ⟨before.chars, after.chars ++ ',' :: more.text, List.append_assoc _ _ _⟩
      · exact ⟨before.chars ++ value.text ++ after.chars ++ [','], [], by simp⟩

end

theorem paired_of_plain {ps : List Piece} (h : '\\' ∉ piecesText ps) : Paired ps := by
  induction ps with
  | nil => exact .nil
  | cons p ps ih =>
      rw [piecesText_cons, List.mem_append, not_or] at h
      cases p with
      | plain c quotable => exact .plain quotable (ih h.2)
      | escape e => exact absurd List.mem_cons_self h.1
      | unit u => exact absurd List.mem_cons_self h.1

theorem Document.readable_of_short {d : Document} (hlength : d.text.length ≤ nestingLimit)
    (hplain : '\\' ∉ d.text) : d.tree.Readable := by
  have hbounds : Bounds d.text d.tree.depth d.tree.longestInteger d.tree.strings :=
    d.tree.bounds.within ⟨d.before.chars, d.after.chars, List.append_assoc _ _ _⟩
  refine ⟨hbounds.depth.trans hlength, ?_, ?_⟩
  · exact hbounds.digits.trans (hlength.trans (by decide))
  · exact fun ps hps => paired_of_plain fun hmem => hplain (hbounds.strings ps hps hmem)

/-- The text of a document is that of its bytes. -/
theorem Document.Spells.text_eq {d : Document} {text : List Char}
    (h : d.Spells (Utf8.encode text)) (hmark : text.head? ≠ some '\uFEFF') : d.text = text := by
  rcases h with h | h
  · exact (Utf8.encode_injective h).symm
  · exact absurd (head_of_encode h.symm) hmark

/-- Bytes are parsed to `v` exactly if they spell a JSON text with this value. -/
theorem parse_eq_ok_iff_spells {bs : Bytes} {v : Json}
    (readable : ∀ d : Document, d.Spells bs → d.tree.Readable) :
    parse bs = .ok v ↔ ∃ d : Document, d.Spells bs ∧ d.tree.value? = some v := by
  rw [parse_eq_ok_iff]
  constructor
  · rintro ⟨text, hbytes, htext⟩
    obtain ⟨d, rfl, hvalue⟩ := exists_document_of_ofText htext
    obtain ⟨v', hv⟩ := d.tree.exists_value (readable d hbytes).surrogates
    exact ⟨d, hbytes, hvalue v' hv ▸ hv⟩
  · rintro ⟨d, hspells, hvalue⟩
    have hd := readable d hspells
    exact ⟨d.text, hspells, d.ofText_text hd.depth hd.integers hvalue⟩

def repeatedKey : List Char := "\x7b\"a\": 1, \"b\": 2.5, \"a\": [true]\x7d".toList

theorem spells_repeatedKey :
    (∀ d : Document, d.Spells (Utf8.encode repeatedKey) → d.tree.Readable) ∧
      ∃ d : Document, d.Spells (Utf8.encode repeatedKey) ∧
        d.tree.value? = some (.object [("a", .array [.bool true]),
          ("b", .number (.float (.ofDecimal false 25 (-1))))]) := by
  have readable : ∀ d : Document, d.Spells (Utf8.encode repeatedKey) → d.tree.Readable := by
    intro d hspells
    have htext := hspells.text_eq (by decide)
    apply Document.readable_of_short <;> rw [htext] <;> decide
  exact ⟨readable, (parse_eq_ok_iff_spells readable).1 rfl⟩

end Gltf.Json.Syntax
