import Gltf.Proofs.Json.Grammar
import Gltf.Proofs.Json.PrintedNumbers
import Mathlib

/-!
The compact text of a value is a text of the grammar with this value, without blanks, so it is parsed
to the value. Members whose keys are distinct keep their order.
-/

namespace Gltf.Json

/-- Values with a JSON text that is parsed: numbers are finite and no longer than is read, the keys
of an object distinct, and arrays and objects nested at most `depth` deep. -/
inductive Printable : ℕ → Json → Prop
  | null (depth : ℕ) : Printable depth .null
  | bool (depth : ℕ) (b : Bool) : Printable depth (.bool b)
  | int (depth : ℕ) {n : ℤ} (short : Binary64.decimalLength n.natAbs ≤ digitLimit) :
      Printable depth (.number (.int n))
  | float (depth : ℕ) {x : Binary64} (finite : x.isFinite = true) :
      Printable depth (.number (.float x))
  | string (depth : ℕ) (s : String) : Printable depth (.string s)
  | array {depth : ℕ} {items : List Json} (printable : ∀ v ∈ items, Printable depth v) :
      Printable (depth + 1) (.array items)
  | object {depth : ℕ} {members : List (String × Json)} (keys : (members.map (·.1)).Nodup)
      (printable : ∀ m ∈ members, Printable depth m.2) : Printable (depth + 1) (.object members)

namespace Syntax

/-! ### Strings -/

/-- The code unit of a control character. -/
def controlUnit (k : Fin 32) : CodeUnit :=
  ⟨⟨0, false⟩, ⟨0, false⟩, ⟨⟨k / 16, by omega⟩, false⟩, ⟨⟨k % 16, by omega⟩, false⟩⟩

theorem controlUnit_spec : ∀ k : Fin 32,
    (controlUnit k).digits = Text.hexDigits 4 k ∧ (controlUnit k).value = k ∧
      (controlUnit k).isHigh = false ∧ (controlUnit k).isLow = false := by
  decide

theorem exists_of_shortEscape? {c letter : Char} (h : shortEscape? c = some letter) :
    ∃ e : Escape, e.letter = letter ∧ e.char = c := by
  rw [shortEscape?] at h
  split_ifs at h with hquote hbackslash hn hr ht hb hf <;> cases h
  · exact ⟨.quote, rfl, hquote.symm⟩
  · exact ⟨.backslash, rfl, hbackslash.symm⟩
  · exact ⟨.lineFeed, rfl, hn.symm⟩
  · exact ⟨.carriageReturn, rfl, hr.symm⟩
  · exact ⟨.tab, rfl, ht.symm⟩
  · exact ⟨.backspace, rfl, hb.symm⟩
  · exact ⟨.formFeed, rfl, hf.symm⟩

/-- The piece that a character is written as. -/
theorem exists_piece (c : Char) :
    ∃ p : Piece, p.text = escapeChar c ∧ ∀ ps, chars? (p :: ps) = (chars? ps).map (c :: ·) := by
  rw [escapeChar]
  cases hshort : shortEscape? c with
  | some letter =>
      obtain ⟨e, rfl, rfl⟩ := exists_of_shortEscape? hshort
      exact ⟨.escape e, rfl, fun _ => rfl⟩
  | none =>
      simp only
      split_ifs with hcontrol
      · obtain ⟨hdigits, hvalue, hhigh, hlow⟩ := controlUnit_spec ⟨c.toNat, hcontrol⟩
        refine ⟨.unit (controlUnit ⟨c.toNat, hcontrol⟩), ?_, ?_⟩
        · rw [Piece.text, hdigits, unicodeEscape]
        · intro ps
          rw [chars?_unit hhigh hlow, hvalue, Fin.val_mk, Char.ofNat_toNat]
      · have quotable : 0x20 ≤ c.toNat ∧ c ≠ '"' ∧ c ≠ '\\' := by
          refine ⟨not_lt.1 hcontrol, ?_, ?_⟩ <;>
          · rintro rfl
            cases hshort
        exact ⟨.plain c quotable, rfl, fun _ => rfl⟩

theorem exists_pieces (cs : List Char) :
    ∃ ps, piecesText ps = cs.flatMap escapeChar ∧ chars? ps = some cs := by
  induction cs with
  | nil => exact ⟨[], rfl, rfl⟩
  | cons c cs ih =>
      obtain ⟨ps, htext, hchars⟩ := ih
      obtain ⟨p, hp, hcons⟩ := exists_piece c
      exact ⟨p :: ps, by rw [piecesText_cons, hp, htext, List.flatMap_cons],
        by rw [hcons, hchars]; rfl⟩

theorem exists_quoted (s : String) :
    ∃ ps, quoted ps = quote escapeChar s ∧ chars? ps = some s.toList := by
  obtain ⟨ps, htext, hchars⟩ := exists_pieces s.toList
  exact ⟨ps, by rw [quoted, quote, htext]; rfl, hchars⟩

/-! ### Values -/

/-- A tree without blanks, as deep as `depth` at most, that spells a value. -/
structure Spells (depth : ℕ) (v : Json) (t : Tree) : Prop where
  text : t.text = v.compact
  value : t.value? = some v
  depth : t.depth ≤ depth
  integers : t.longestInteger ≤ digitLimit

theorem exists_items {depth : ℕ} {vs : List Json} (hne : vs ≠ [])
    (h : ∀ v ∈ vs, ∃ t, Spells depth v t) :
    ∃ items : Items, items.text = compactItems vs ∧ items.values? = some vs ∧
      items.depth ≤ depth ∧ items.longestInteger ≤ digitLimit := by
  induction vs with
  | nil => exact absurd rfl hne
  | cons v vs ih =>
      rw [List.forall_mem_cons] at h
      obtain ⟨⟨t, ht⟩, hmore⟩ := h
      cases vs with
      | nil =>
          refine ⟨.last .none t .none, ?_, ?_, ht.depth, ht.integers⟩
          · simp [Items.text, compactItems, ht.text]
          · simp [Items.values?, ht.value]
      | cons v' vs =>
          obtain ⟨items, htext, hvalues, hdepth, hintegers⟩ := ih (by simp) hmore
          refine ⟨.next .none t .none items, ?_, ?_, max_le ht.depth hdepth,
            max_le ht.integers hintegers⟩
          · simp [Items.text, compactItems, ht.text, htext]
          · exact Items.values?_next.2 ⟨v, v' :: vs, ht.value, hvalues, rfl⟩

theorem exists_members {depth : ℕ} {entries : List (String × Json)} (hne : entries ≠ [])
    (h : ∀ e ∈ entries, ∃ t, Spells depth e.2 t) :
    ∃ members : Members, members.text = compactMembers entries ∧
      members.entries? = some entries ∧ members.depth ≤ depth ∧
      members.longestInteger ≤ digitLimit := by
  induction entries with
  | nil => exact absurd rfl hne
  | cons e entries ih =>
      obtain ⟨key, v⟩ := e
      rw [List.forall_mem_cons] at h
      obtain ⟨⟨t, ht⟩, hmore⟩ := h
      obtain ⟨ps, hquoted, hchars⟩ := exists_quoted key
      have hname : Name.text ⟨.none, ps, .none⟩ = quote escapeChar key ++ [':'] := by
        simp [Name.text, hquoted]
      cases entries with
      | nil =>
          refine ⟨.last ⟨.none, ps, .none⟩ .none t .none, ?_, ?_, ht.depth, ht.integers⟩
          · simp [Members.text, compactMembers, hname, ht.text]
          · exact Members.entries?_last.2
              ⟨key.toList, v, hchars, ht.value, by rw [String.ofList_toList]⟩
      | cons e' entries =>
          obtain ⟨members, htext, hentries, hdepth, hintegers⟩ := ih (by simp) hmore
          refine ⟨.next ⟨.none, ps, .none⟩ .none t .none members, ?_, ?_, max_le ht.depth hdepth,
            max_le ht.integers hintegers⟩
          · simp [Members.text, compactMembers, hname, ht.text, htext]
          · exact Members.entries?_next.2 ⟨key.toList, v, e' :: entries, hchars, ht.value, hentries,
              by rw [String.ofList_toList]⟩

theorem exists_spells {depth : ℕ} {v : Json} (h : Printable depth v) : ∃ t, Spells depth v t := by
  induction h with
  | null depth => exact ⟨.null, rfl, rfl, Nat.zero_le _, Nat.zero_le _⟩
  | bool depth b => cases b <;> exact ⟨.bool _, rfl, rfl, Nat.zero_le _, Nat.zero_le _⟩
  | @int depth n short =>
      obtain ⟨m, htext, hvalue, hlength⟩ := exists_numeral_intText n
      refine ⟨.number m, htext, congrArg (fun n => some (Json.number n)) hvalue, Nat.zero_le _, ?_⟩
      rw [Tree.longestInteger, hlength]
      split_ifs
      · exact short
      · exact Nat.zero_le _
  | @float depth x finite =>
      obtain ⟨m, htext, hvalue⟩ := exists_numeral_float finite
      refine ⟨.number m, htext, congrArg (fun n => some (Json.number n)) hvalue, Nat.zero_le _, ?_⟩
      rw [Tree.longestInteger, isInteger_of_float hvalue, if_neg Bool.false_ne_true]
      exact Nat.zero_le _
  | string depth s =>
      obtain ⟨ps, hquoted, hchars⟩ := exists_quoted s
      refine ⟨.string ps, hquoted, ?_, Nat.zero_le _, Nat.zero_le _⟩
      rw [Tree.value?, hchars, Option.map_some, String.ofList_toList]
  | @array depth items _ ih =>
      cases items with
      | nil => exact ⟨.emptyArray .none, rfl, rfl, Nat.succ_le_succ (Nat.zero_le _), Nat.zero_le _⟩
      | cons v vs =>
          obtain ⟨items, htext, hvalues, hdepth, hintegers⟩ := exists_items (by simp) ih
          refine ⟨.array items, ?_, ?_, Nat.succ_le_succ hdepth, hintegers⟩
          · simp [Tree.text, compact, htext]
          · simp [Tree.value?, hvalues]
  | @object depth members keys _ ih =>
      cases members with
      | nil => exact ⟨.emptyObject .none, rfl, rfl, Nat.succ_le_succ (Nat.zero_le _), Nat.zero_le _⟩
      | cons e entries =>
          obtain ⟨members, htext, hentries, hdepth, hintegers⟩ := exists_members (by simp) ih
          refine ⟨.object members, ?_, ?_, Nat.succ_le_succ hdepth, hintegers⟩
          · simp [Tree.text, compact, htext]
          · rw [Tree.value?, hentries, Option.map_some, ← ofList_eq_merged,
              Table.ofList_of_nodup keys]

end Syntax

/-- The compact text of a value is parsed to the value. -/
theorem parse_compact {v : Json} (h : Printable nestingLimit v) :
    parse (Utf8.encode v.compact) = .ok v := by
  obtain ⟨t, ht⟩ := Syntax.exists_spells h
  have htext : Syntax.Document.text ⟨.none, t, .none⟩ = v.compact := by
    simp [Syntax.Document.text, ht.text]
  have hread := Syntax.Document.ofText_text ⟨.none, t, .none⟩ ht.depth ht.integers ht.value
  rw [htext] at hread
  exact Syntax.parse_eq_ok_iff.2 ⟨v.compact, .inl rfl, hread⟩

end Gltf.Json
