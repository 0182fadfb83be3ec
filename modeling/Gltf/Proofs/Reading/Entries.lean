import Gltf.Document
import Gltf.Proofs.Reading.Members
import Mathlib

/-!
The entries of an array of objects and the records that are read from them. An entry that is no
object is left out, so a record may stand further in front than its entry.
-/

namespace Gltf

theorem Json.kind_eq_object_iff {j : Json} : j.kind = .object ↔ ∃ members, j = .object members := by
  cases j with
  | object members => simp [Json.kind]
  | number n => cases n <;> simp [Json.kind]
  | _ => simp [Json.kind]

/-- Elements of the same list, as two partial functions give them. -/
theorem forall₂_filterMap {α β γ : Type} {R : β → γ → Prop} {f : α → Option β} {g : α → Option γ}
    {l : List α} (h : ∀ a ∈ l, Option.Rel R (f a) (g a)) :
    List.Forall₂ R (l.filterMap f) (l.filterMap g) := by
  induction l with
  | nil => exact .nil
  | cons a l ih =>
      rw [List.forall_mem_cons] at h
      obtain ⟨hhead, htail⟩ := h
      have htail := ih htail
      rw [List.filterMap_cons, List.filterMap_cons]
      generalize f a = b at hhead ⊢
      generalize g a = c at hhead ⊢
      cases hhead with
      | some hhead => exact .cons hhead htail
      | none => exact htail

namespace Reading

/-- The entries of a member that is an array; any other member has none. -/
def entriesOf (members : List (String × Json)) (key : String) : List Json :=
  match Table.get? members key with
  | some (.array entries) => entries
  | _ => []

/-! ### Entries that are left out -/

/-- Where those entries stand that are objects; the first entry stands at `start`. -/
def keptFrom (start : ℕ) (entries : List Json) : List ℕ :=
  (entries.zipIdx start).filterMap fun e => if e.1.kind = .object then some e.2 else none

/-- Where the entries stand that are read, in their order. -/
def kept (entries : List Json) : List ℕ := keptFrom 0 entries

section
variable {entries : List Json} {start k i : ℕ}

theorem keptFrom_cons (j : Json) :
    keptFrom start (j :: entries) =
      if j.kind = .object then start :: keptFrom (start + 1) entries
      else keptFrom (start + 1) entries := by
  rw [keptFrom, List.zipIdx_cons, List.filterMap_cons]
  split_ifs <;> rfl

/-- No entry stands further in front than its record. -/
theorem le_of_getElem?_keptFrom (h : (keptFrom start entries)[k]? = some i) : start + k ≤ i := by
  induction entries generalizing start k with
  | nil => cases h
  | cons j entries ih =>
      rw [keptFrom_cons] at h
      split_ifs at h with hobject
      · cases k with
        | zero => exact Option.some.inj h ▸ le_rfl
        | succ k =>
            have := ih h
            omega
      · have := ih h
        omega

/-- Record and entry stand at the same place exactly if nothing up to there is left out. -/
theorem getElem?_keptFrom_eq_iff :
    (keptFrom start entries)[k]? = some (start + k) ↔
      ∀ j ≤ k, ∃ members, entries[j]? = some (.object members) := by
  induction entries generalizing start k with
  | nil =>
      refine iff_of_false nofun fun h => ?_
      obtain ⟨members, hmembers⟩ := h 0 (Nat.zero_le k)
      cases hmembers
  | cons j entries ih =>
      by_cases hobject : j.kind = .object
      · obtain ⟨members, rfl⟩ := Json.kind_eq_object_iff.1 hobject
        rw [keptFrom_cons, if_pos hobject]
        cases k with
        | zero => simp
        | succ k =>
            have hshift : start + (k + 1) = start + 1 + k := by omega
            rw [List.getElem?_cons_succ, hshift, ih]
            constructor
            · intro h n hn
              cases n with
              | zero => exact ⟨members, rfl⟩
              | succ n => exact h n (by omega)
            · exact fun h n hn => h (n + 1) (by omega)
      · rw [keptFrom_cons, if_neg hobject]
        refine iff_of_false (fun h => ?_) fun h => ?_
        · have := le_of_getElem?_keptFrom h
          omega
        · obtain ⟨members, hmembers⟩ := h 0 (Nat.zero_le k)
          exact hobject (Json.kind_eq_object_iff.2 ⟨members, Option.some.inj hmembers⟩)

end

theorem le_of_getElem?_kept {entries : List Json} {k i : ℕ} (h : (kept entries)[k]? = some i) :
    k ≤ i := by
  have := le_of_getElem?_keptFrom h
  omega

theorem getElem?_kept_eq_iff {entries : List Json} {k : ℕ} :
    (kept entries)[k]? = some k ↔ ∀ j ≤ k, ∃ members, entries[j]? = some (.object members) := by
  have hiff : (keptFrom 0 entries)[k]? = some (0 + k) ↔ _ := getElem?_keptFrom_eq_iff
  rwa [Nat.zero_add] at hiff

/-! ### Records -/

/-- The record that is read from the entry of an array at a place. -/
inductive ReadAt (o : Options) (t : ObjectType) (path : Path) (entries : List Json) (i : ℕ) :
    Record → Prop
  | mk {members : List (String × Json)} {r : Record} {findings : List Finding}
      (entry : entries[i]? = some (.object members))
      (read : readRecord o t (path.index i) (.object members) = (some r, findings)) :
      ReadAt o t path entries i r

section
variable (o : Options) (t : ObjectType) (path : Path)

theorem readValue_object_object (members : List (String × Json)) :
    ∃ r findings, readRecord o t path (.object members) = (some r, findings) ∧
      (readValue o path (.required (.object t)) (.object members)).value = some (.record r) := by
  refine ⟨_, _, readRecord_object_eq o t path members, ?_⟩
  show (readForm o path (.object t) (.object members)).value = _
  rw [readForm_object_eq]

theorem readValue_object_other {j : Json} (h : j.kind ≠ .object) :
    (readValue o path (.required (.object t)) j).value = none := by
  cases j with
  | object members => exact absurd rfl h
  | _ => rfl

/-- The records of an array stand in the order of the entries that are objects. -/
theorem forall₂_readAt (entries : List Json) :
    List.Forall₂ (fun i v => ∃ r, v = .record r ∧ ReadAt o t path entries i r) (kept entries)
      ((entries.mapIdx fun k v => readValue o (path.index k) (.required (.object t)) v).filterMap
        (·.value)) := by
  rw [List.mapIdx_eq_zipIdx_map, List.filterMap_map]
  refine forall₂_filterMap fun e he => ?_
  obtain ⟨entry, i⟩ := e
  have hentry : entries[i]? = some entry := List.mem_zipIdx_iff_getElem?.1 he
  by_cases hobject : entry.kind = .object
  · obtain ⟨members, rfl⟩ := Json.kind_eq_object_iff.1 hobject
    obtain ⟨r, findings, hread, hvalue⟩ :=
      readValue_object_object o t (path.index i) members
    simp only [Function.comp_apply, hvalue]
    exact .some ⟨r, rfl, hentry, hread⟩
  · simp only [Function.comp_apply, readValue_object_other o t _ hobject, if_neg hobject]
    exact .none

/-- What a list is read as, whether it is an array, something else, or not there. -/
theorem value_readValue_list (item : Shape) (j : Json) :
    (readValue o path (.required (.list item)) j).value =
      match j with
      | .array entries =>
          some (.list ((entries.mapIdx fun k v => readValue o (path.index k) item v).filterMap
            (·.value)))
      | _ => none := by
  cases j with
  | array entries =>
      show (readForm o path (.list item) (.array entries)).value = _
      rw [readForm_array_list]
      rfl
  | _ => rfl

variable {o t path}

theorem items_of_accounts {key name : String} {form : Form} {members : List (String × Json)}
    {r : Record} {findings : List Finding} (hlist : Schema.listOf key name form ∈ t.properties)
    (h : Accounts o t path members r findings) :
    (r.field name).items = ((entriesOf members key).mapIdx fun k v =>
      readValue o ((path.key key).index k) (.required form) v).filterMap (·.value) := by
  have hlisted {items : List Value} (hfield : Table.get? r.fields name = some (.list items)) :
      (r.field name).items = items := by
    rw [Record.field, hfield]
    rfl
  cases hfound : Table.get? members key with
  | none =>
      have habsent := h.absent _ hlist (Table.get?_eq_none_iff.1 hfound)
      rw [hlisted habsent, entriesOf, hfound]
      rfl
  | some j =>
      have hvalue := value_readValue_list o (path.key key) (.required form) j
      rcases h.present _ hlist j hfound with ⟨v, hv, hfield⟩ | ⟨hv, hfield, -⟩
      · have hsome := hvalue.symm.trans hv
        cases j with
        | array entries =>
            cases hsome
            rw [hlisted hfield, entriesOf, hfound]
        | _ => cases hsome
      · have hnone := hvalue.symm.trans hv
        rw [hlisted hfield]
        cases j with
        | array entries => cases hnone
        | _ => rw [entriesOf, hfound]; rfl

/-- The records of a list are read from the entries of its member, in their order. -/
theorem forall₂_recordsField {t' : ObjectType} {key name : String}
    {members : List (String × Json)} {r : Record} {findings : List Finding}
    (hsep : Separate t.properties t.derived) (hkeys : (members.map (·.1)).Nodup)
    (hlist : Schema.listOf key name (.object t') ∈ t.properties)
    (hread : readRecord o t path (.object members) = (some r, findings)) :
    List.Forall₂ (ReadAt o t' (path.key key) (entriesOf members key))
      (kept (entriesOf members key)) (r.recordsField name) := by
  rw [readRecord_object_eq, Prod.mk.injEq, Option.some.injEq] at hread
  have haccounts : Accounts o t path members r _ := hread.1 ▸ accounts_foldl hsep hkeys
  have hitems := items_of_accounts hlist haccounts
  have hrecords := forall₂_readAt o t' (path.key key) (entriesOf members key)
  rw [← hitems] at hrecords
  rw [Record.recordsField, List.forall₂_map_right_iff]
  refine hrecords.imp fun i v hv => ?_
  obtain ⟨r', rfl, hat⟩ := hv
  exact hat

end

end Reading

end Gltf
