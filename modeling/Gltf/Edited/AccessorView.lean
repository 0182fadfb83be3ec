import Gltf.Accessor.View
import Gltf.Edited.Bytes

/-!
Accessor views of a root record that a caller has edited. As long as the fields that a view reads
hold values of their types the view is that of the document; otherwise each value is used as far as
it goes.
-/

namespace Gltf.Edited

/-! Records whose fields hold what a document has there -/

def holdsIntegers (r : Record) (names : List String) : Bool :=
  names.all fun name => (r.field name).isInteger

def holdsIntegerOrNull (r : Record) (name : String) : Bool :=
  (r.field name).isNull || (r.field name).isInteger

def isBuffer : Value → Bool
  | .record r => (r.field "data").isNull || (r.field "data").bytes?.isSome
  | _ => false

def isBufferView : Value → Bool
  | .record r =>
      holdsIntegers r ["buffer", "byte_offset", "byte_length"] && holdsIntegerOrNull r "byte_stride"
  | _ => false

def isSparse : Value → Bool
  | .record r =>
      holdsIntegers r ["count"] &&
        (match r.field "indices", r.field "values" with
        | .record indices, .record values =>
            holdsIntegers indices ["buffer_view", "byte_offset", "component_type"] &&
              holdsIntegers values ["buffer_view", "byte_offset"]
        | _, _ => false)
  | v => v.isNull

def isAccessor : Value → Bool
  | .record r =>
      holdsIntegerOrNull r "buffer_view" && holdsIntegers r ["byte_offset", "count"] &&
        (r.componentField? "component_type").isSome &&
        ((r.stringField? "type").bind AccessorType.ofName?).isSome && isSparse (r.field "sparse")
  | _ => false

def holdsAll (r : Record) (name : String) (fits : Value → Bool) : Bool :=
  match r.field name with
  | .list items => items.all fits
  | _ => false

/-- Whether the accessors of a root, and all that they refer to, are as in a document. -/
def isDocument (root : Record) : Bool :=
  holdsAll root "buffers" isBuffer && holdsAll root "buffer_views" isBufferView &&
    holdsAll root "accessors" isAccessor

/-! Views of other records -/

/-- The part of a buffer that an accessor reads, with bounds that need not be integers. -/
structure Extent where
  data : Bytes
  start : Value
  available : Value
  stride : Value

/-- Elements can be read from bytes only. -/
def content (data : Value) : Except Fault Bytes :=
  match data with
  | .bytes bs => .ok bs
  | data => .error (.noContent data.kindName)

/-- The bytes of a buffer view from an offset on. -/
def resolve (root : Record) (index offset : Value) : Except (Refusal ViewFailure) Extent := do
  let views ← elementsNamed root "buffer_views"
  if !(← index.isIndexOf views) then refuse (.status .invalidBufferViewIndex)
  let view ← views.element index
  let buffers ← elementsNamed root "buffers"
  let buffer ← view.field "buffer"
  if !(← buffer.isIndexOf buffers) then refuse (.status .invalidBufferIndex)
  let data ← (← buffers.element buffer).field "data"
  if data.isNull then refuse (.status .unresolvedBuffer)
  let stop ← viewEnd view
  if ← stop.greaterThan (.ofInt (← data.length)) then refuse (.status .bufferTooSmall)
  let length ← view.field "byte_length"
  if ← offset.greaterThan length then refuse (.status .bufferViewTooSmall)
  pure {
    data := ← content data
    start := ← (← view.field "byte_offset").plus offset
    available := ← length.minus offset
    stride := ← view.field "byte_stride" }

/-- The layout of an accessor's elements. -/
structure Elements where
  componentType : ComponentType
  offsets : List Nat
  size : Nat

def Elements.ofAccessor (accessor : Value) : Except Fault Elements := do
  let code ← accessor.field "component_type"
  let type ← accessor.field "type"
  match (code.number?.bind Number.toInt?).bind ComponentType.ofCode?,
    type.string?.bind AccessorType.ofName? with
  | some c, some t => .ok ⟨c, t.offsets c.size, t.elementSize c⟩
  | none, _ => .error (.noKey code.text)
  | _, none => .error (.noKey type.text)

/-- A number of elements or of bytes. A boolean is no such number. -/
def whole (v : Value) : Except Fault Int :=
  if v.isInteger then v.integer else .error (.noInteger v.kindName)

/-- So many elements from a start on. -/
def gatherFrom (data : Bytes) (start count stride : Value) (e : Elements) :
    Except (Refusal ViewFailure) (List Element) := do
  if count.isNumber (.int 0) then pure []
  else
    let elements ←
      (gather data (← start.integer) (← count.integer) (← stride.integer).toNat e.offsets
        e.componentType).mapError fun fault => .reason (.fault fault)
    let _ ← whole count
    let _ ← whole stride
    pure elements

/-- The bytes that so many elements take up, so many bytes apart. -/
def span (count stride : Value) (size : Nat) : Except Fault Value := do
  (← stride.times (← count.minus (.ofInt 1))).plus (.ofInt size)

def baseElements (root : Record) (accessor : Value) (e : Elements) :
    Except (Refusal ViewFailure) (List Element) := do
  let index ← accessor.field "buffer_view"
  let count ← accessor.field "count"
  if index.isNull then
    (zeroElements e.offsets e.componentType (← whole count)).mapError
      fun fault => .reason (.fault fault)
  else
    let extent ← resolve root index (← accessor.field "byte_offset")
    let stride := if extent.stride.isTrue then extent.stride else .ofInt e.size
    if ← stride.lessThan (.ofInt e.size) then refuse (.status .invalidByteStride)
    if ← count.greaterThan (.ofInt 0) then
      if ← (← span count stride e.size).greaterThan extent.available then
        refuse (.status .bufferViewTooSmall)
    gatherFrom extent.data extent.start count stride e

/-- The elements with those that the sparse part lists replaced. -/
def applySparse (root : Record) (sparse : Value) (e : Elements) (elements : List Element) :
    Except (Refusal ViewFailure) (List Element) := do
  let places ← sparse.field "indices"
  let code ← places.field "component_type"
  match ((code.number?.bind Number.toInt?).bind ComponentType.ofCode?).filter
    ComponentType.isIndex with
  | none => refuse (.status .invalidSparse)
  | some c =>
      let indices ← resolve root (← places.field "buffer_view") (← places.field "byte_offset")
      let contents ← sparse.field "values"
      let values ← resolve root (← contents.field "buffer_view") (← contents.field "byte_offset")
      let count ← sparse.field "count"
      if ← indices.available.lessThan (← count.times (.ofInt c.size)) then
        refuse (.status .invalidSparse)
      if ← values.available.lessThan (← count.times (.ofInt e.size)) then
        refuse (.status .invalidSparse)
      let targets ←
        (sparseIndices indices.data (← indices.start.integer) (← count.integer) c).mapError
          fun fault => .reason (.fault fault)
      if count.isTrue && targets.isEmpty then refuse (.fault .noIndices)
      if targets.any fun i => elements.length ≤ i then refuse (.status .invalidSparse)
      let replacements ← gatherFrom values.data values.start count (.ofInt e.size) e
      pure (scatter elements targets replacements)

def elementsOf (root : Record) (accessor : Value) : Except (Refusal ViewFailure) (List Element) := do
  let e ← Elements.ofAccessor accessor
  let base ← baseElements root accessor e
  let sparse ← accessor.field "sparse"
  let elements ← if sparse.isNull then pure base else applySparse root sparse e base
  let divisor? := if (← accessor.field "normalized").isTrue then e.componentType.divisor? else none
  match divisor? with
  | some divisor => pure (elements.map (·.map (normalize divisor)))
  | none => pure elements

/-- The view of the accessor at an index, whatever the fields hold. -/
def viewOfValues (root : Record) (index : Value) : Except (Refusal GatherFault) AccessorView := do
  let accessors ← elementsNamed root "accessors"
  if !(← index.isIndexOf accessors) then pure ⟨.invalidAccessorIndex, none, []⟩
  else
    let found ← accessors.element index
    let accessor := found.record?.map Accessor.ofRecord
    match elementsOf root found with
    | .ok elements => pure ⟨.valid, accessor, elements⟩
    | .error (.reason (.status status)) => pure ⟨status, accessor, []⟩
    | .error (.reason (.fault fault)) => refuse fault
    | .error (.fault fault) => .error (.fault fault)

/-- The view of the accessor at an index. -/
def accessorView (root : Record) (index : Int) : Except (Refusal GatherFault) AccessorView :=
  if isDocument root then (AccessorView.ofDocument (.ofRecord root) index).mapError .reason
  else viewOfValues root (.ofInt index)

end Gltf.Edited
