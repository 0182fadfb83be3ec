import Gltf.Reading.Reader
import Mathlib

/-!
The reader of records, element by element. What it does along a list of items, entries, members or
extensions is one function applied to each of them, and each form reads the values of one kind and
leaves the others to `readLeaf`.
-/

namespace Gltf

theorem Json.sizeOf_lt_array {items : List Json} {j : Json} (h : j ∈ items) :
    sizeOf j < sizeOf (Json.array items) := by
  have hmem := List.sizeOf_lt_of_mem h
  rw [Json.array.sizeOf_spec]
  omega

theorem Json.sizeOf_lt_object {members : List (String × Json)} {m : String × Json}
    (h : m ∈ members) : sizeOf m.2 < sizeOf (Json.object members) := by
  obtain ⟨key, j⟩ := m
  have hmem := List.sizeOf_lt_of_mem h
  rw [Prod.mk.sizeOf_spec] at hmem
  rw [Json.object.sizeOf_spec]
  simp only
  omega

/-- A property of JSON values that passes from the values inside an array or an object to it holds
of all. -/
theorem Json.inductionOn {motive : Json → Prop} (j : Json)
    (array : ∀ items, (∀ v ∈ items, motive v) → motive (.array items))
    (object : ∀ members, (∀ m ∈ members, motive m.2) → motive (.object members))
    (scalar : ∀ j, (∀ items, j ≠ .array items) → (∀ members, j ≠ .object members) → motive j) :
    motive j := by
  match j with
  | .array items => exact array items fun v hv => inductionOn v array object scalar
  | .object members => exact object members fun m hm => inductionOn m.2 array object scalar
  | .null => exact scalar .null (by simp) (by simp)
  | .bool b => exact scalar (.bool b) (by simp) (by simp)
  | .number n => exact scalar (.number n) (by simp) (by simp)
  | .string s => exact scalar (.string s) (by simp) (by simp)
termination_by sizeOf j
decreasing_by
  · exact Json.sizeOf_lt_array hv
  · exact Json.sizeOf_lt_object hm

namespace Reading

/-- Reads a value in a shape. -/
def readValue (o : Options) (path : Path) (shape : Shape) (value : Json) : Outcome :=
  readShape path value (fun form => readForm o path form value) shape

/-- Reads an extension of an object of the given kinds; `path` is that of the extensions. -/
def readExtension (o : Options) (chain : List String) (path : Path) (name : String) (value : Json) :
    Outcome :=
  if o.resolve chain name = .disabled then ⟨none, []⟩
  else
    match o.handler? chain name with
    | none => .accept (.json value)
    | some (.record t) => extensionOutcome name value (readForm o (path.key name) (.object t) value)
    | some (.function _ read) => extensionOutcome name value (callReader (path.key name) read value)

/-- The extensions of an object of the given kinds, and what was found in them. -/
def readBlock (o : Options) (chain : List String) (path : Path) :
    Json → Table String Value × List Finding
  | .object entries =>
      let outcomes := entries.map fun e => (e.1, readExtension o chain path e.1 e.2)
      (presentEntries outcomes, outcomes.flatMap (·.2.findings))
  | value => ([], [.ofPath path (.wrongKind .object value.kind)])

/-- Reads a member of an object that has a key of its own for no property. -/
def readOther (o : Options) (t : ObjectType) (path : Path) (key : String) (value : Json) :
    Part × List Finding :=
  if key = "extensions" then
    let block := readBlock o t.lineage.chain (path.key key) value
    (.extensions block.1, block.2)
  else if key = "extras" then (.extras value, [])
  else if o.captureUnknown then (.unknown key value, [])
  else (.dropped, [])

/-- Reads a member of an object. -/
def readMember (o : Options) (t : ObjectType) (path : Path) (key : String) (value : Json) :
    Part × List Finding :=
  match t.property? key with
  | some p =>
      let outcome := readValue o (path.key key) p.shape value
      (.field p.field outcome.value, outcome.findings)
  | none => readOther o t path key value

section
variable (o : Options) (path : Path)

theorem readItems_eq_mapIdx (item : Shape) (i : Nat) (values : List Json) :
    readItems o item path i values =
      values.mapIdx fun k v => readValue o (path.index (i + k)) item v := by
  induction values generalizing i with
  | nil => rfl
  | cons v values ih =>
      have hshift (k : Nat) : i + 1 + k = i + (k + 1) := by omega
      rw [readItems, ih, List.mapIdx_cons]
      simp only [hshift, Nat.add_zero, readValue]

theorem readEntries_eq_map (item : Shape) (members : List (String × Json)) :
    readEntries o item path members =
      members.map fun m => (m.1, readValue o (path.key m.1) item m.2) := by
  induction members with
  | nil => rfl
  | cons m members ih =>
      obtain ⟨key, value⟩ := m
      rw [readEntries, ih]
      rfl

theorem readExtensions_eq_map (chain : List String) (entries : List (String × Json)) :
    readExtensions o chain path entries =
      entries.map fun e => (e.1, readExtension o chain path e.1 e.2) := by
  induction entries with
  | nil => rfl
  | cons e entries ih =>
      obtain ⟨name, value⟩ := e
      rw [readExtensions, ih]
      rfl

theorem readMembers_eq_map (t : ObjectType) (members : List (String × Json)) :
    readMembers o t path members = members.map fun m => readMember o t path m.1 m.2 := by
  induction members with
  | nil => rfl
  | cons m members ih =>
      obtain ⟨key, value⟩ := m
      rw [List.map_cons, ← ih]
      -- The reader looks into the value for extensions before it looks at the key.
      cases value with
      | object entries =>
          rw [readMembers, readMember]
          simp only [readOther, readBlock, ← readExtensions_eq_map]
          rfl
      | _ => rfl

/-! ### Shapes -/

theorem readValue_optional_of_ne {form : Form} {j : Json} (hj : j ≠ .null) :
    readValue o path (.optional form) j = readForm o path form j := by
  cases j with
  | null => exact absurd rfl hj
  | _ => rfl

theorem readValue_choice_of_ne {forms : List Form} {text : String} {listsNull : Bool}
    {j : Json} (hj : j ≠ .null) :
    readValue o path (.choice forms text listsNull) j =
      match forms.findSome? fun form => (readForm o path form j).clean? with
      | some v => .accept v
      | none => .refuse path (.noChoice j.kind text) := by
  cases j with
  | null => exact absurd rfl hj
  | _ => rfl

/-! ### Forms -/

theorem readForm_array_list (item : Shape) (values : List Json) :
    readForm o path (.list item) (.array values) =
      assembleList (values.mapIdx fun k v => readValue o (path.index k) item v) := by
  have hitems := readItems_eq_mapIdx o path item 0 values
  simp only [Nat.zero_add] at hitems
  rw [readForm, hitems]

theorem readForm_object_map (item : Shape) (members : List (String × Json)) :
    readForm o path (.map item) (.object members) =
      assembleMap (members.map fun m => (m.1, readValue o (path.key m.1) item m.2)) := by
  rw [readForm, readEntries_eq_map]

theorem readForm_object_object (t : ObjectType) (members : List (String × Json)) :
    readForm o path (.object t) (.object members) =
      assemble t path (members.map (·.1)) (members.map fun m => readMember o t path m.1 m.2) := by
  rw [readForm, readMembers_eq_map]

/-- The containers that forms open: a list an array, a map and an object type an object. -/
inductive Opens : Form → Json → Prop
  | list (item : Shape) (values : List Json) : Opens (.list item) (.array values)
  | map (item : Shape) (members : List (String × Json)) : Opens (.map item) (.object members)
  | object (t : ObjectType) (members : List (String × Json)) : Opens (.object t) (.object members)

theorem readForm_of_not_opens {form : Form} {j : Json} (h : ¬Opens form j) :
    readForm o path form j = readLeaf path form j := by
  cases j with
  | array values =>
      cases form with
      | list item => exact absurd (.list item values) h
      | _ => rfl
  | object members =>
      cases form with
      | map item => exact absurd (.map item members) h
      | object t => exact absurd (.object t members) h
      | _ => rfl
  | _ => rfl

theorem readBlock_of_ne_object {chain : List String} {j : Json}
    (hj : ∀ entries, j ≠ .object entries) :
    readBlock o chain path j = ([], [.ofPath path (.wrongKind .object j.kind)]) := by
  cases j with
  | object entries => exact absurd rfl (hj entries)
  | _ => rfl

end

/-- What passes from the values inside a container to what a form makes of it, and to the extensions
read from it, holds of all values. A handler reads what lies two levels below its object, hence the
two together. -/
theorem inductionOn (forms : Path → Form → Json → Prop) (block : Path → List String → Json → Prop)
    (j : Json)
    (list : ∀ path item items, (∀ v ∈ items, ∀ path form, forms path form v) →
      forms path (.list item) (.array items))
    (map : ∀ path item (members : List (String × Json)),
      (∀ m ∈ members, ∀ path form, forms path form m.2) → forms path (.map item) (.object members))
    (object : ∀ path t (members : List (String × Json)),
      (∀ m ∈ members, (∀ path form, forms path form m.2) ∧ ∀ path chain, block path chain m.2) →
        forms path (.object t) (.object members))
    (leaf : ∀ path form j, ¬Opens form j → forms path form j)
    (extensions : ∀ path chain (members : List (String × Json)),
      (∀ m ∈ members, ∀ path form, forms path form m.2) → block path chain (.object members))
    (none : ∀ path chain j, (∀ members, j ≠ .object members) → block path chain j) :
    (∀ path form, forms path form j) ∧ ∀ path chain, block path chain j := by
  induction j using Json.inductionOn with
  | array items ih =>
      refine ⟨fun path form => ?_, fun path chain => none path chain _ (by simp)⟩
      by_cases hopens : Opens form (.array items)
      · cases hopens with
        | list item => exact list path item items fun v hv => (ih v hv).1
      · exact leaf path form _ hopens
  | object members ih =>
      refine ⟨fun path form => ?_, fun path chain =>
        extensions path chain members fun m hm => (ih m hm).1⟩
      by_cases hopens : Opens form (.object members)
      · cases hopens with
        | map item => exact map path item members fun m hm => (ih m hm).1
        | object t => exact object path t members ih
      · exact leaf path form _ hopens
  | scalar j harray hobject =>
      refine ⟨fun path form => leaf path form j fun hopens => ?_, fun path chain =>
        none path chain j hobject⟩
      cases hopens with
      | list item values => exact harray values rfl
      | map item members => exact hobject members rfl
      | object t members => exact hobject members rfl

end Reading

end Gltf
