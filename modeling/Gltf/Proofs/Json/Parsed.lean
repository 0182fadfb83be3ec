import Gltf.Proofs.Json.Derivations
import Gltf.Proofs.Json.Grammar
import Gltf.Proofs.Table
import Mathlib

/-!
An object that is parsed has each key once.
-/

namespace Gltf.Json

theorem readScalar_ne_object {text rest : List Char} {members : List (String × Json)} :
    readScalar text ≠ .ok (.object members, rest) := by
  intro h
  rw [readScalar] at h
  split at h
  · rename_i result hword
    obtain ⟨⟨word, value⟩, hmem, hprefix⟩ := List.exists_of_findSome?_eq_some hword
    obtain ⟨behind, -, rfl⟩ := Option.map_eq_some_iff.1 hprefix
    simp only [words, List.mem_cons, Prod.mk.injEq, List.not_mem_nil, or_false] at hmem
    rcases hmem with ⟨-, rfl⟩ | ⟨-, rfl⟩ | ⟨-, rfl⟩ | ⟨-, rfl⟩ | ⟨-, rfl⟩ | ⟨-, rfl⟩ <;> cases h
  · obtain ⟨n, hn, -⟩ := Syntax.Numeral.exists_of_readNumber h
    cases hn

/-- Objects begin with a brace. -/
theorem readValue_ne_object {size depth : Nat} {c : Char} {text rest : List Char}
    {members : List (String × Json)} (hobject : c ≠ '{') :
    readValue size depth (c :: text) ≠ .ok (.object members, rest) := by
  intro h
  by_cases hquote : c = '"'
  · subst hquote
    rw [readValue_string] at h
    obtain ⟨s, -, hs⟩ := Syntax.exists_of_map (fun s => string (String.ofList s)) h
    cases hs
  by_cases harray : c = '['
  · subst harray
    cases depth with
    | zero =>
        rw [readValue_array_zero] at h
        cases h
    | succ depth =>
        by_cases hempty : ∃ behind, skipSpace text = ']' :: behind
        · obtain ⟨behind, hempty⟩ := hempty
          rw [readValue_array_nil hempty] at h
          cases h
        · rw [readValue_array (not_exists.1 hempty)] at h
          obtain ⟨items, -, hitems⟩ := Syntax.exists_of_map array h
          cases hitems
  · rw [readValue_scalar hquote harray hobject] at h
    exact readScalar_ne_object h

theorem nodup_keys_of_readValue {size depth : Nat} {text rest : List Char}
    {members : List (String × Json)} (h : readValue size depth text = .ok (.object members, rest)) :
    (members.map (·.1)).Nodup := by
  cases text with
  | nil => exact absurd h readValue_nil
  | cons c text =>
      by_cases hobject : c = '{'
      · subst hobject
        cases depth with
        | zero =>
            rw [readValue_object_zero] at h
            cases h
        | succ depth =>
            by_cases hempty : ∃ behind, skipSpace text = '}' :: behind
            · obtain ⟨behind, hempty⟩ := hempty
              rw [readValue_object_nil hempty] at h
              cases h
              exact List.nodup_nil
            · rw [readValue_object (not_exists.1 hempty)] at h
              obtain ⟨entries, -, hentries⟩ :=
                Syntax.exists_of_map (fun entries => object (Table.ofList entries)) h
              cases hentries
              exact Table.nodup_keys_ofList entries
      · exact absurd h (readValue_ne_object hobject)

theorem nodup_keys_of_parse {bs : Bytes} {members : List (String × Json)}
    (h : parse bs = .ok (.object members)) : (members.map (·.1)).Nodup := by
  obtain ⟨text, -, htext⟩ := Syntax.parse_eq_ok_iff.1 h
  rw [ofText] at htext
  split_ifs at htext
  cases hread : readValue text.length nestingLimit (skipSpace text) with
  | error failure =>
      rw [hread] at htext
      cases htext
  | ok found =>
      obtain ⟨v, rest⟩ := found
      rw [hread] at htext
      simp only [bind, Except.bind] at htext
      split at htext
      · cases htext
        exact nodup_keys_of_readValue hread
      · cases htext

end Gltf.Json
