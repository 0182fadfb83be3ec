import Gltf.Proofs.Json.Trees
import Mathlib

/-!
What is read as a value is the text of a tree. The reader also accepts strings with lone surrogates,
for which the grammar has no value, so values are compared where the tree has one.
-/

namespace Gltf.Json.Syntax

theorem exists_of_readScalar {text rest : List Char} {v : Json}
    (h : readScalar text = .ok (v, rest)) :
    ∃ t : Tree, text = t.text ++ rest ∧ t.value? = some v := by
  rw [readScalar] at h
  split at h
  · rename_i result hword
    obtain ⟨⟨word, value⟩, hmem, hprefix⟩ := List.exists_of_findSome?_eq_some hword
    obtain ⟨behind, hbehind, rfl⟩ := Option.map_eq_some_iff.1 hprefix
    have htext := List.append_eq_of_isPrefixOf?_eq_some hbehind
    simp only [words, List.mem_cons, Prod.mk.injEq, List.not_mem_nil, or_false] at hmem
    rcases hmem with ⟨rfl, rfl⟩ | ⟨rfl, rfl⟩ | ⟨rfl, rfl⟩ | ⟨-, rfl⟩ | ⟨-, rfl⟩ | ⟨-, rfl⟩ <;>
      cases h
    · exact ⟨.null, htext.symm, rfl⟩
    · exact ⟨.bool true, htext.symm, rfl⟩
    · exact ⟨.bool false, htext.symm, rfl⟩
  · obtain ⟨n, rfl, rfl⟩ := Numeral.exists_of_readNumber h
    exact ⟨.number n, rfl, rfl⟩

theorem exists_of_readName {text rest : List Char} {name : String}
    (h : readName text = .ok (name, rest)) :
    ∃ (ps : List Piece) (after before : Space),
      text = quoted ps ++ (after.chars ++ ':' :: (before.chars ++ rest)) ∧
        ∀ cs, chars? ps = some cs → name = String.ofList cs := by
  rw [readName.eq_def] at h
  split at h
  · rename_i text
    cases hread : readString ('"' :: text) 0 [] text with
    | error failure => simp [hread, bind, Except.bind] at h
    | ok found =>
        obtain ⟨s, behind⟩ := found
        obtain ⟨ps, rfl, hchars⟩ := spelled_of_readString hread
        obtain ⟨after, hafter⟩ := Space.exists_skipSpace behind
        simp only [hread, bind, Except.bind] at h
        split at h
        · rename_i more hcolon
          cases h
          obtain ⟨before, hbefore⟩ := Space.exists_skipSpace more
          refine ⟨ps, after, before, ?_, ?_⟩
          · rw [← hbefore, ← hcolon, ← hafter, quoted, List.cons_append, List.append_assoc]
            rfl
          · intro cs hcs
            rw [hchars cs hcs]
            rfl
        · cases h
  · cases h

/-- The text of a tree, up to `rest`, whose value, if it has one, is `v`. -/
def Derived (text : List Char) (v : Json) (rest : List Char) : Prop :=
  ∃ t : Tree, text = t.text ++ rest ∧ ∀ v', t.value? = some v' → v = v'

section
variable {item : Reader Json} {fuel : Nat} {text rest : List Char}
  (hitem : ∀ text v rest, item text = .ok (v, rest) → Derived text v rest)
include hitem

theorem exists_of_readItems {done vs : List Json}
    (h : readItems item fuel done text = .ok (vs, rest)) (before : Space) :
    ∃ items : Items, before.chars ++ text = items.text ++ ']' :: rest ∧
      ∀ vs', items.values? = some vs' → vs = done.reverse ++ vs' := by
  induction fuel generalizing done text before with
  | zero => cases h
  | succ fuel ih =>
      cases hread : item text with
      | error failure =>
          rw [readItems_of_error hread] at h
          cases h
      | ok found =>
          obtain ⟨v, behind⟩ := found
          obtain ⟨t, rfl, hvalue⟩ := hitem _ _ _ hread
          obtain ⟨after, hafter⟩ := Space.exists_skipSpace behind
          rcases delimiter_cases ']' (skipSpace behind) with
            ⟨more, hclose⟩ | ⟨more, hcomma⟩ | ⟨hclose, hcomma⟩
          · rw [readItems_of_close hread hclose] at h
            cases h
            refine ⟨.last before t after, ?_, ?_⟩
            · rw [hafter, hclose]
              simp only [Items.text, List.append_assoc]
            · intro vs' hvs
              obtain ⟨v', hv, rfl⟩ := Option.map_eq_some_iff.1 hvs
              rw [hvalue v' hv, List.reverse_cons]
          · rw [readItems_of_comma hread hcomma] at h
            obtain ⟨between, hbetween⟩ := Space.exists_skipSpace more
            obtain ⟨items, hitems, hvalues⟩ := ih h between
            refine ⟨.next before t after items, ?_, ?_⟩
            · rw [hafter, hcomma, hbetween, hitems]
              simp only [Items.text, List.append_assoc, List.cons_append]
            · intro vs' hvs
              obtain ⟨v', vs', hv, hvs', rfl⟩ := Items.values?_next.1 hvs
              rw [hvalues vs' hvs', hvalue v' hv, List.reverse_cons, List.append_assoc,
                List.singleton_append]
          · rw [readItems_of_other hread hclose hcomma] at h
            cases h

theorem exists_of_readMembers {done entries : List (String × Json)}
    (h : readMembers item fuel done text = .ok (entries, rest)) (before : Space) :
    ∃ members : Members, before.chars ++ text = members.text ++ '}' :: rest ∧
      ∀ entries', members.entries? = some entries' → entries = done.reverse ++ entries' := by
  induction fuel generalizing done text before with
  | zero => cases h
  | succ fuel ih =>
      cases hname : readName text with
      | error failure =>
          rw [readMembers_of_name_error hname] at h
          cases h
      | ok named =>
      obtain ⟨name, value⟩ := named
      obtain ⟨ps, colon, space, rfl, hchars⟩ := exists_of_readName hname
      cases hread : item value with
      | error failure =>
          rw [readMembers_of_error hname hread] at h
          cases h
      | ok found =>
          obtain ⟨v, behind⟩ := found
          obtain ⟨t, rfl, hvalue⟩ := hitem _ _ _ hread
          obtain ⟨after, hafter⟩ := Space.exists_skipSpace behind
          rcases delimiter_cases '}' (skipSpace behind) with
            ⟨more, hclose⟩ | ⟨more, hcomma⟩ | ⟨hclose, hcomma⟩
          · rw [readMembers_of_close hname hread hclose] at h
            cases h
            refine ⟨.last ⟨before, ps, colon⟩ space t after, ?_, ?_⟩
            · rw [hafter, hclose]
              simp only [Members.text, Name.text, List.append_assoc, List.cons_append,
                List.nil_append]
            · intro entries' hentries
              obtain ⟨cs, v', hcs, hv, rfl⟩ := Members.entries?_last.1 hentries
              rw [hchars cs hcs, hvalue v' hv, List.reverse_cons]
          · rw [readMembers_of_comma hname hread hcomma] at h
            obtain ⟨between, hbetween⟩ := Space.exists_skipSpace more
            obtain ⟨members, hmembers, hentries⟩ := ih h between
            refine ⟨.next ⟨before, ps, colon⟩ space t after members, ?_, ?_⟩
            · rw [hafter, hcomma, hbetween, hmembers]
              simp only [Members.text, Name.text, List.append_assoc, List.cons_append,
                List.nil_append]
            · intro entries' hentries'
              obtain ⟨cs, v', entries', hcs, hv, hmore, rfl⟩ := Members.entries?_next.1 hentries'
              rw [hentries entries' hmore, hchars cs hcs, hvalue v' hv, List.reverse_cons,
                List.append_assoc, List.singleton_append]
          · rw [readMembers_of_other hname hread hclose hcomma] at h
            cases h

end

theorem exists_of_map {α β : Type} {answer : Except Failure (α × List Char)} (f : α → β)
    {rest : List Char} {v : β}
    (h : (answer.map fun (a, rest) => (f a, rest)) = .ok (v, rest)) :
    ∃ a, answer = .ok (a, rest) ∧ f a = v := by
  cases answer with
  | error failure => cases h
  | ok found =>
      cases h
      exact ⟨_, rfl, rfl⟩

theorem derived_of_readValue_leaf {size depth : Nat} {c : Char} {text rest : List Char} {v : Json}
    (harray : c ≠ '[') (hobject : c ≠ '{')
    (h : readValue size depth (c :: text) = .ok (v, rest)) : Derived (c :: text) v rest := by
  by_cases hquote : c = '"'
  · subst hquote
    rw [readValue_string] at h
    obtain ⟨s, hread, rfl⟩ := exists_of_map (fun s => string (String.ofList s)) h
    obtain ⟨ps, rfl, hchars⟩ := spelled_of_readString hread
    refine ⟨.string ps, ?_, ?_⟩
    · simp only [Tree.text, quoted, List.append_assoc, List.cons_append, List.nil_append]
    · intro v' hv
      obtain ⟨cs, hcs, rfl⟩ := Option.map_eq_some_iff.1 hv
      rw [hchars cs hcs]
      rfl
  · rw [readValue_scalar hquote harray hobject] at h
    obtain ⟨t, htext, hvalue⟩ := exists_of_readScalar h
    exact ⟨t, htext, fun v' hv => Option.some.inj (hvalue.symm.trans hv)⟩

section
variable {size depth : Nat} {text rest : List Char} {v : Json}
  (ih : ∀ text v rest, readValue size depth text = .ok (v, rest) → Derived text v rest)
include ih

theorem derived_of_readValue_array (h : readValue size (depth + 1) ('[' :: text) = .ok (v, rest)) :
    Derived ('[' :: text) v rest := by
  obtain ⟨inside, hinside⟩ := Space.exists_skipSpace text
  by_cases hempty : ∃ behind, skipSpace text = ']' :: behind
  · obtain ⟨behind, hempty⟩ := hempty
    rw [readValue_array_nil hempty] at h
    cases h
    refine ⟨.emptyArray inside, ?_, ?_⟩
    · rw [hinside, hempty]
      simp only [Tree.text, List.append_assoc, List.cons_append, List.nil_append]
    · intro v' hv
      cases hv
      rfl
  · rw [readValue_array (not_exists.1 hempty)] at h
    obtain ⟨vs, hread, rfl⟩ := exists_of_map array h
    obtain ⟨items, hitems, hvalues⟩ := exists_of_readItems ih hread inside
    refine ⟨.array items, ?_, ?_⟩
    · rw [hinside, hitems]
      simp only [Tree.text, List.append_assoc, List.cons_append, List.nil_append]
    · intro v' hv
      obtain ⟨vs', hvs, rfl⟩ := Option.map_eq_some_iff.1 hv
      rw [hvalues vs' hvs]
      rfl

theorem derived_of_readValue_object (h : readValue size (depth + 1) ('{' :: text) = .ok (v, rest)) :
    Derived ('{' :: text) v rest := by
  obtain ⟨inside, hinside⟩ := Space.exists_skipSpace text
  by_cases hempty : ∃ behind, skipSpace text = '}' :: behind
  · obtain ⟨behind, hempty⟩ := hempty
    rw [readValue_object_nil hempty] at h
    cases h
    refine ⟨.emptyObject inside, ?_, ?_⟩
    · rw [hinside, hempty]
      simp only [Tree.text, List.append_assoc, List.cons_append, List.nil_append]
    · intro v' hv
      cases hv
      rfl
  · rw [readValue_object (not_exists.1 hempty)] at h
    obtain ⟨entries, hread, rfl⟩ :=
      exists_of_map (fun entries => object (Table.ofList entries)) h
    obtain ⟨members, hmembers, hentries⟩ := exists_of_readMembers ih hread inside
    refine ⟨.object members, ?_, ?_⟩
    · rw [hinside, hmembers]
      simp only [Tree.text, List.append_assoc, List.cons_append, List.nil_append]
    · intro v' hv
      obtain ⟨entries', hentries', rfl⟩ := Option.map_eq_some_iff.1 hv
      rw [hentries entries' hentries', ofList_eq_merged]
      rfl

end

theorem derived_of_readValue {size depth : Nat} {text rest : List Char} {v : Json}
    (h : readValue size depth text = .ok (v, rest)) : Derived text v rest := by
  cases text with
  | nil => exact absurd h readValue_nil
  | cons c text =>
      induction depth generalizing c text v rest with
      | zero =>
          refine derived_of_readValue_leaf ?_ ?_ h
          · rintro rfl
            rw [readValue_array_zero] at h
            cases h
          · rintro rfl
            rw [readValue_object_zero] at h
            cases h
      | succ depth ih =>
          have hinner : ∀ text v rest, readValue size depth text = .ok (v, rest) →
              Derived text v rest := by
            intro text v rest h
            cases text with
            | nil => exact absurd h readValue_nil
            | cons c text => exact ih c text h
          by_cases harray : c = '['
          · subst harray
            exact derived_of_readValue_array hinner h
          by_cases hobject : c = '{'
          · subst hobject
            exact derived_of_readValue_object hinner h
          exact derived_of_readValue_leaf harray hobject h

end Gltf.Json.Syntax
