import Gltf.Proofs.Json.Surroundings
import Gltf.Proofs.Reading.Origin
import Gltf.Proofs.Schema.Plain
import Mathlib

/-!
Reading around a place. Of a value in a document, what stands beside it makes the frame: list items,
entries, fields, extensions, extras and unknown members, and what is found before and behind it. The
frame does not depend on the value; the value is read as what is expected in its place, and put into
the frame.
-/

namespace Gltf

namespace Reading

/-! ### Parts of a record that do not meet -/

/-- Parts with places of their own in a record. Unknown members have none, as their order counts. -/
def Part.Apart : Part → Part → Prop
  | .field name _, .field name' _ => name ≠ name'
  | .extensions _, .extensions _ => False
  | .extras _, .extras _ => False
  | .unknown _ _, _ => False
  | _, _ => True

/-- Whether the field that a part sets is there already. -/
def Part.Known (r : Record) : Part → Prop
  | .field name _ => name ∈ r.fields.map (·.1)
  | _ => True

theorem Part.Known.addPart {r : Record} {p : Part} (h : p.Known r) (q : Part) :
    p.Known (Reading.addPart r q) := by
  cases p with
  | field name v =>
      rcases q with ⟨name', _ | v'⟩ | _ | _ | _ | _
      case field.some => exact Table.mem_keys_put v' h
      all_goals exact h
  | _ => trivial

theorem addPart_comm {r : Record} {p q : Part} (h : p.Apart q) (hp : p.Known r) :
    addPart (addPart r p) q = addPart (addPart r q) p := by
  obtain ⟨lineage, fields, extensions, extras, unknown⟩ := r
  rcases p with ⟨name, _ | v⟩ | _ | _ | _ | _ <;> rcases q with ⟨name', _ | v'⟩ | _ | _ | _ | _
  case field.some.field.some =>
    exact congrArg (Record.mk lineage · extensions extras unknown) (Table.put_comm v v' h hp)
  all_goals first | rfl | exact h.elim

/-- A part apart from those behind it may come last. -/
theorem foldl_addPart_insert {r : Record} {before after : List Part} {p : Part}
    (hafter : ∀ q ∈ after, p.Apart q) (hp : p.Known r) :
    (before ++ p :: after).foldl addPart r = addPart ((before ++ after).foldl addPart r) p := by
  have hbefore : p.Known (before.foldl addPart r) := by
    clear hafter
    induction before generalizing r with
    | nil => exact hp
    | cons q before ih => exact ih (hp.addPart q)
  rw [List.foldl_append, List.foldl_append, List.foldl_cons]
  -- The part passes those behind it one by one.
  generalize before.foldl addPart r = r' at hbefore
  induction after generalizing r' with
  | nil => rfl
  | cons q after ih =>
      rw [List.foldl_cons, List.foldl_cons, addPart_comm (hafter q List.mem_cons_self) hbefore]
      exact ih (fun q' hq' => hafter q' (List.mem_cons_of_mem _ hq')) _ (hbefore.addPart q)

/-- The record with other unknown members. -/
def withUnknown (r : Record) (unknown : Table String Json) : Record :=
  .mk r.lineage r.fields r.extensions r.extras unknown

theorem withUnknown_unknown (r : Record) : withUnknown r r.unknown = r := by
  cases r
  rfl

theorem foldl_addPart_eq (r : Record) (parts : List Part) :
    parts.foldl addPart r =
      .mk r.lineage (Table.putAll r.fields (parts.filterMap Part.set?))
        ((parts.filterMap Part.extensions?).getLast?.getD r.extensions)
        ((parts.filterMap Part.extras?).getLast?.getD r.extras)
        (Table.putAll r.unknown (parts.filterMap Part.unknown?)) := by
  rw [← lineage_foldl_addPart r parts, ← fields_foldl_addPart, ← extensions_foldl_addPart,
    ← extras_foldl_addPart, ← unknown_foldl_addPart]
  cases parts.foldl addPart r
  rfl

/-- An unknown member has its place between those before and behind it. -/
theorem foldl_addPart_unknown (r : Record) (before after : List Part) (key : String) (j : Json) :
    (before ++ .unknown key j :: after).foldl addPart r =
      withUnknown ((before ++ after).foldl addPart r)
        (Table.putAll r.unknown
          (before.filterMap Part.unknown? ++ (key, j) :: after.filterMap Part.unknown?)) := by
  rw [foldl_addPart_eq, foldl_addPart_eq r (before ++ after), withUnknown]
  simp only [List.filterMap_append]
  rfl

/-! ### Frames -/

/-- What is expected at a place in a document. -/
inductive Slot where
  | shape (shape : Shape)
  /-- The extensions of an object of the given kinds. -/
  | block (chain : List String)
  /-- An extension among them; `outer` is their path. -/
  | extension (chain : List String) (outer : Path) (name : String)
  /-- Whatever stands there is kept. -/
  | kept
  /-- Whatever stands there is passed over. -/
  | passed

/-- Reads what stands in a place. Extensions come out as a map. -/
def Slot.read (o : Options) (path : Path) : Slot → Json → Outcome
  | .shape s, j => readValue o path s j
  | .block chain, j => ⟨some (.map (readBlock o chain path j).1), (readBlock o chain path j).2⟩
  | .extension chain outer name, j => readExtension o chain outer name j
  | .kept, j => .accept (.json j)
  | .passed, _ => ⟨none, []⟩

/-- The form of a value in a place, for which null may stand too. -/
def Slot.form? (o : Options) : Slot → Option Form
  | .shape (.required form) => some form
  | .shape (.optional form) => some form
  | .extension chain _ name =>
      match o.handler? chain name with
      | some (.record t) => some (.object t)
      | _ => none
  | _ => none

/-- What is around one value. -/
inductive Layer where
  | list (before after : List Value)
  | map (before : List (String × Value)) (key : String) (after : List (String × Value))
  | field (r : Record) (name : String)
  | extensions (r : Record)
  | extras (r : Record)
  | unknown (r : Record) (before : Table String Json) (key : String) (after : Table String Json)
  | verbatim (around : Surround)
  /-- What there is whatever stands inside. -/
  | fixed (value : Option Value)

/-- Puts a value into its place, or leaves the place out if there is none. -/
def Layer.plug : Layer → Option Value → Option Value
  | list before after, v => some (.list (before ++ v.toList ++ after))
  | map before key after, v => some (.map (before ++ (v.map (key, ·)).toList ++ after))
  | field r name, v => some (.record (addPart r (.field name v)))
  | extensions r, v => some (.record (addPart r (.extensions (v.elim [] Value.entries))))
  | extras r, v => (v.bind Value.json?).map fun j => .record (addPart r (.extras j))
  | unknown r before key after, v =>
      (v.bind Value.json?).map fun j => .record (withUnknown r (before ++ (key, j) :: after))
  | verbatim around, v => (v.bind Value.json?).map fun j => .json (around.fill j)
  | fixed value, _ => value

/-- `Inside o slot s layer inner`: in a value that stands where `slot` is expected, `inner` is
expected in the place that `s` surrounds, and `layer` is around it. -/
inductive Slot.Inside (o : Options) : Slot → Surround → Layer → Slot → Prop
  | item {slot : Slot} {item : Shape} {before after : List Json} {before' after' : List Value}
      (form : slot.form? o = some (.list item)) :
      Inside o slot (.item before after) (.list before' after') (.shape item)
  | entry {slot : Slot} {item : Shape} {before after : List (String × Json)} {key : String}
      {before' after' : List (String × Value)} (form : slot.form? o = some (.map item)) :
      Inside o slot (.member before key after) (.map before' key after') (.shape item)
  | property {slot : Slot} {t : ObjectType} {p : Property} {before after : List (String × Json)}
      {key : String} {r : Record} (form : slot.form? o = some (.object t))
      (property : t.property? key = some p) :
      Inside o slot (.member before key after) (.field r p.field) (.shape p.shape)
  | extensions {slot : Slot} {t : ObjectType} {before after : List (String × Json)} {r : Record}
      (form : slot.form? o = some (.object t)) (unlisted : t.property? "extensions" = none) :
      Inside o slot (.member before "extensions" after) (.extensions r) (.block t.lineage.chain)
  | extension {chain : List String} {outer : Path} {before after : List (String × Json)}
      {name : String} {before' after' : List (String × Value)} :
      Inside o (.block chain) (.member before name after) (.map before' name after')
        (.extension chain outer name)
  | extras {slot : Slot} {t : ObjectType} {before after : List (String × Json)} {r : Record}
      (form : slot.form? o = some (.object t)) (unlisted : t.property? "extras" = none) :
      Inside o slot (.member before "extras" after) (.extras r) .kept
  | unknown {slot : Slot} {t : ObjectType} {key : String}
      {before after before' after' : List (String × Json)} {r : Record}
      (form : slot.form? o = some (.object t)) (unknown : t.knows key = false) :
      Inside o slot (.member before key after) (.unknown r before' key after') .kept
  | verbatim {slot : Slot} {s : Surround} : Inside o slot s (.verbatim s) .kept
  | fixed {slot : Slot} {s : Surround} {v : Option Value} : Inside o slot s (.fixed v) .passed

/-- The same along all that surrounds a place. -/
inductive Slot.Along (o : Options) : Slot → List Surround → List Layer → Slot → Prop
  | nil {slot : Slot} : Along o slot [] [] slot
  | cons {slot inner innermost : Slot} {s : Surround} {layer : Layer} {rest : List Surround}
      {layers : List Layer} (head : Inside o slot s layer inner)
      (tail : Along o inner rest layers innermost) :
      Along o slot (s :: rest) (layer :: layers) innermost

theorem Slot.Along.append {o : Options} {outer middle inner : Slot} {c c' : List Surround}
    {layers layers' : List Layer} (h : outer.Along o c layers middle)
    (h' : middle.Along o c' layers' inner) : outer.Along o (c ++ c') (layers ++ layers') inner := by
  induction h with
  | nil => exact h'
  | cons head tail ih => exact .cons head (ih h')

/-- What is around a place, from the outside in, with the extensions that lie on the way there and
what is found before and behind it. -/
structure Frame where
  layers : List Layer
  scope : List String := []
  before : List Finding := []
  after : List Finding := []

theorem presentEntries_insert (before after : List (String × Outcome)) (key : String)
    (inside : Outcome) :
    presentEntries (before ++ (key, inside) :: after) =
      presentEntries before ++ (inside.value.map (key, ·)).toList ++ presentEntries after := by
  cases hvalue : inside.value <;> simp [presentEntries, hvalue]

namespace Frame

def close (f : Frame) (inside : Outcome) : Outcome :=
  ⟨f.layers.foldr Layer.plug inside.value,
    f.before ++ inside.findings.map (·.behind f.scope) ++ f.after⟩

def empty : Frame := { layers := [] }

/-- A frame in a frame. -/
def around (outer inner : Frame) : Frame where
  layers := outer.layers ++ inner.layers
  scope := outer.scope ++ inner.scope
  before := outer.before ++ inner.before.map (·.behind outer.scope)
  after := inner.after.map (·.behind outer.scope) ++ outer.after

/-- A frame that lies in an extension. -/
def within (name : String) (f : Frame) : Frame where
  layers := f.layers
  scope := name :: f.scope
  before := f.before.map (·.within name)
  after := f.after.map (·.within name)

def ofItems (before after : List Outcome) : Frame where
  layers := [.list (before.filterMap (·.value)) (after.filterMap (·.value))]
  before := before.flatMap (·.findings)
  after := after.flatMap (·.findings)

def ofEntries (before : List (String × Outcome)) (key : String)
    (after : List (String × Outcome)) : Frame where
  layers := [.map (presentEntries before) key (presentEntries after)]
  before := before.flatMap (·.2.findings)
  after := after.flatMap (·.2.findings)

def ofVerbatim (around : Surround) : Frame := { layers := [.verbatim around] }

def ofFixed (out : Outcome) : Frame := { layers := [.fixed out.value], before := out.findings }

section
variable (f : Frame) (inside : Outcome)

@[simp] theorem close_empty : empty.close inside = inside := by
  simp [empty, close]

theorem close_around (outer inner : Frame) :
    (outer.around inner).close inside = outer.close (inner.close inside) := by
  simp [around, close, Finding.behind_behind, Function.comp_def]

theorem close_within (name : String) :
    (f.within name).close inside =
      ⟨(f.close inside).value, (f.close inside).findings.map (·.within name)⟩ := by
  simp [within, close, Function.comp_def, Finding.within, Finding.behind]

theorem close_ofItems (before after : List Outcome) :
    (ofItems before after).close inside = assembleList (before ++ inside :: after) := by
  cases hvalue : inside.value <;> simp [ofItems, close, assembleList, Layer.plug, hvalue]

theorem close_ofEntries (before : List (String × Outcome)) (key : String)
    (after : List (String × Outcome)) :
    (ofEntries before key after).close inside = assembleMap (before ++ (key, inside) :: after) := by
  rw [assembleMap, presentEntries_insert]
  simp [ofEntries, close, Layer.plug]

theorem close_ofVerbatim (around : Surround) (j : Json) :
    (ofVerbatim around).close (.accept (.json j)) = .accept (.json (around.fill j)) := rfl

theorem close_ofFixed (out : Outcome) : (ofFixed out).close ⟨none, []⟩ = out := by
  simp [ofFixed, close, Layer.plug]

end

end Frame

end Reading

end Gltf
