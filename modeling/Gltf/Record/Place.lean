import Gltf.Record.Fault
import Gltf.Schema.Core

/-!
Places inside records: a way of field names and list indices from a value to one within it. What a
record carries beside its fields has field names too. A caller may put any value in any place; one
that is of another kind than what a record carries under the name stands among its fields instead,
where it is looked for first.
-/

namespace Gltf

inductive Place where
  | field (name : String)
  | item (index : Int)
deriving DecidableEq, Repr

/-- The place in a list that an index names; negative ones count from the end. -/
def placeOf? (length : Nat) (index : Int) : Option Nat :=
  let place := if index < 0 then index + length else index
  if 0 ≤ place ∧ place < length then some place.toNat else none

/-- Why nothing is at a place in a value. -/
def Place.fault : Place → Value → Fault
  | .field name, .map _ => .noKey name
  | .field name, .json (.object _) => .noKey name
  | .field _, .list _ => .noPosition "list" "str"
  | .field _, .json (.array _) => .noPosition "list" "str"
  | .field name, v => .noField v.kindName name
  | .item index, .map _ => .noKey (String.ofList (intText index))
  | .item index, .json (.object _) => .noKey (String.ofList (intText index))
  | .item _, .list _ => .noItem "list"
  | .item _, .json (.array _) => .noItem "list"
  | .item _, v => .noItems v.kindName

namespace Record

/-- Whether records of this kind carry something beside their fields. -/
def isExtensible (r : Record) : Bool := r.lineage.isA Schema.baseName

def carried? (r : Record) (name : String) : Option Value :=
  if !r.isExtensible then none
  else
    match name with
    | "extensions" => some (.map r.extensions)
    | "extras" => some (.json r.extras)
    | "unknown_properties" => some (.map (r.unknown.map fun (key, value) => (key, .json value)))
    | _ => none

/-- The value of a field, or of what a record carries beside its fields. -/
def get? (r : Record) (name : String) : Option Value :=
  (Table.get? r.fields name).or (r.carried? name)

/-- What a record carries, with a value for one of its parts. -/
def carrying? (r : Record) (name : String) (v : Value) : Option Attachments :=
  match name, v with
  | "extensions", .map entries => some { r.attachments with extensions := entries }
  | "extras", .json extras => some { r.attachments with extras }
  | "unknown_properties", .map entries => do
      let unknown ← entries.mapM fun (key, v) => v.json?.map (key, ·)
      some { r.attachments with unknown }
  | _, _ => none

/-- Replaces the value of a field, or what the record carries beside its fields. -/
def put (r : Record) (name : String) (v : Value) : Except Fault Record :=
  if (r.carried? name).isSome then
    match r.carrying? name v with
    | some a => .ok ((r.eraseField name).withAttachments a)
    | none => .ok (r.setField name v)
  else if (Table.get? r.fields name).isSome then .ok (r.setField name v)
  else .error (.foreignField r.lineage.name name)

end Record

namespace Value

def isNull : Value → Bool
  | .json .null => true
  | _ => false

/-- The value one step away. -/
def step? (v : Value) (place : Place) : Option Value :=
  match v, place with
  | .record r, .field name => r.get? name
  | .map entries, .field name => Table.get? entries name
  | .list items, .item index => (placeOf? items.length index).bind (items[·]?)
  | .json (.array items), .item index =>
      ((placeOf? items.length index).bind (items[·]?)).map .json
  | .json (.object members), .field name => (Table.get? members name).map .json
  | _, _ => none

def step (v : Value) (place : Place) : Except Fault Value :=
  match v.step? place with
  | some found => .ok found
  | none => .error (place.fault v)

def walk (v : Value) (places : List Place) : Except Fault Value := places.foldlM step v

/-- The value with another one put in one step away. A value inside JSON need not be JSON. -/
def putStep (v : Value) (place : Place) (new : Value) : Except Fault Value :=
  match v, place with
  | .record r, .field name => (r.put name new).map .record
  | .map entries, .field name => .ok (.map (Table.put entries name new))
  | .json (.object members), .field name =>
      match new with
      | .json j => .ok (.json (.object (Table.put members name j)))
      | new => .ok (.map (Table.put (members.map fun (key, j) => (key, .json j)) name new))
  | .list items, .item index =>
      match placeOf? items.length index with
      | some i => .ok (.list (items.set i new))
      | none => .error (place.fault v)
  | .json (.array items), .item index =>
      match placeOf? items.length index, new with
      | some i, .json j => .ok (.json (.array (items.set i j)))
      | some i, new => .ok (.list ((items.map .json).set i new))
      | none, _ => .error (place.fault v)
  | v, place => .error (place.fault v)

/-- The value with the one at a place replaced by what a function makes of it. -/
def update (f : Value → Except Fault Value) : List Place → Value → Except Fault Value
  | [], v => f v
  | place :: places, v => do v.putStep place (← update f places (← v.step place))

/-- The value with another one at a place. The last step may lead to a new entry of a map. -/
def replace (v : Value) (places : List Place) (new : Value) : Except Fault Value :=
  match places.getLast? with
  | some last => v.update (·.putStep last new) places.dropLast
  | none => .ok new

end Value

namespace Record

def walk (r : Record) (places : List Place) : Except Fault Value := (Value.record r).walk places

/-- The record that a value is. -/
def ofValue : Value → Except Fault Record
  | .record r => .ok r
  | v => .error (.noField v.kindName "extensions")

def replace (r : Record) (places : List Place) (v : Value) : Except Fault Record := do
  ofValue (← (Value.record r).replace places v)

/-- What a record carries, if its extensions are a map. -/
def carriage (r : Record) : Except Fault Attachments :=
  match Table.get? r.fields "extensions" with
  | some v => .error (.noField v.kindName "get")
  | none =>
      if r.isExtensible then .ok r.attachments
      else .error (.noField r.lineage.name "extensions")

/-- The record with an extension added to the one at a place. -/
def addExtension (r : Record) (places : List Place) (key : String) (extension : Record) :
    Except Fault Record := do
  let add (v : Value) : Except Fault Value := do
    let owner ← ofValue v
    match Table.get? owner.fields "extensions" with
    | some v => .error (.noItems v.kindName)
    | none => .ok (.record (owner.withAttachments ((← owner.carriage).add key extension)))
  ofValue (← (Value.record r).update add places)

end Record

end Gltf
