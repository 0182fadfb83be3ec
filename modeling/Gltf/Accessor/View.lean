import Gltf.Accessor.Layout

/-!
The elements of an accessor, read through its buffer view and patched by its sparse part. A view
that cannot be read has a status that says why, and no elements. Bytes that a signed offset puts
outside the buffer, and negative counts, are faults instead.
-/

namespace Gltf

inductive ViewStatus where
  | valid
  | invalidAccessorIndex
  | invalidBufferViewIndex
  | invalidBufferIndex
  | unresolvedBuffer
  | bufferTooSmall
  | bufferViewTooSmall
  | invalidByteStride
  | invalidSparse
deriving DecidableEq, Repr

def ViewStatus.name : ViewStatus → String
  | .valid => "valid"
  | .invalidAccessorIndex => "invalid_accessor_index"
  | .invalidBufferViewIndex => "invalid_buffer_view_index"
  | .invalidBufferIndex => "invalid_buffer_index"
  | .unresolvedBuffer => "unresolved_buffer"
  | .bufferTooSmall => "buffer_too_small"
  | .bufferViewTooSmall => "buffer_view_too_small"
  | .invalidByteStride => "invalid_byte_stride"
  | .invalidSparse => "invalid_sparse"

/-- What no status covers. -/
inductive GatherFault where
  /-- A position or a number that eight bytes do not hold. -/
  | beyondWord
  | outsideBuffer
  | negativeCount
  | tooManyElements
  | partialIndex
  | noIndices
deriving DecidableEq, Repr

/-- Why a view is not made: it has a status other than valid, or runs into a fault. -/
inductive ViewFailure where
  | status (status : ViewStatus)
  | fault (fault : GatherFault)
deriving DecidableEq, Repr

abbrev Element := List Number

/-- The component at an offset. -/
def componentAt (bs : Bytes) (c : ComponentType) (offset : Nat) : Number :=
  c.decode ((bs.drop offset).take c.size)

/-- The first elements of those that begin `stride` bytes apart. -/
def elementsAt (stride : Nat) (offsets : List Nat) (c : ComponentType) : Nat → Bytes → List Element
  | 0, _ => []
  | count + 1, bs =>
      offsets.map (componentAt bs c) :: elementsAt stride offsets c count (bs.drop stride)

/-- The elements that begin `stride` bytes apart from a start on. All their bytes, the last offset
being the greatest, must lie in the buffer. -/
def gather (bs : Bytes) (start count : Int) (stride : Nat) (offsets : List Nat)
    (c : ComponentType) : Except GatherFault (List Element) :=
  let length := (count - 1) * stride + ((offsets.getLast?.getD 0 + c.size : Nat) : Int)
  if count = 0 then .ok []
  else if !(Bytes.isWord start && Bytes.isWord length && Bytes.isWord count) then .error .beyondWord
  else if count < 0 then .error .negativeCount
  else if start < 0 ∨ (bs.length : Int) < start + length then .error .outsideBuffer
  else .ok (elementsAt stride offsets c count.toNat (bs.drop start.toNat))

/-- The part of a buffer that an accessor reads: from a start on, so many bytes of it. -/
structure Extent where
  data : Bytes
  start : Int
  available : Int
  stride : Option Int

/-- The bytes of a buffer view from an offset on. -/
def resolve (d : Document) (viewIndex byteOffset : Int) : Except ViewStatus Extent :=
  match elementAt? d.bufferViews viewIndex with
  | none => .error .invalidBufferViewIndex
  | some view =>
      match elementAt? d.buffers view.buffer with
      | none => .error .invalidBufferIndex
      | some buffer =>
          match buffer.data with
          | none => .error .unresolvedBuffer
          | some data =>
              if (data.length : Int) < view.byteOffset + view.byteLength then .error .bufferTooSmall
              else if view.byteLength < byteOffset then .error .bufferViewTooSmall
              else
                .ok ⟨data, view.byteOffset + byteOffset, view.byteLength - byteOffset,
                  view.byteStride⟩

/-- The number of bytes between the begins of elements: the stride of the view unless it is zero or
missing. -/
def strideOf (size : Nat) (stride : Option Int) : Int :=
  match stride with
  | some n => if n = 0 then size else n
  | none => size

/-- Elements whose components are all zero. Their bytes must be fewer than two to the 63. -/
def zeroElements (offsets : List Nat) (c : ComponentType) (count : Int) :
    Except GatherFault (List Element) :=
  if count < 0 then .error .negativeCount
  else if 0x8000000000000000 ≤ count * offsets.length * c.size then .error .tooManyElements
  else .ok (List.replicate count.toNat (offsets.map fun _ => c.zero))

/-- The elements without the sparse part: zeros if there is no buffer view. -/
def baseElements (d : Document) (a : Accessor) : Except ViewFailure (List Element) :=
  let offsets := a.type.offsets a.componentType.size
  let size := a.type.elementSize a.componentType
  match a.bufferView with
  | none => (zeroElements offsets a.componentType a.count).mapError .fault
  | some viewIndex => do
      let extent ← (resolve d viewIndex a.byteOffset).mapError .status
      let stride := strideOf size extent.stride
      if stride < size then .error (.status .invalidByteStride)
      else if 0 < a.count ∧ extent.available < stride * (a.count - 1) + size then
        .error (.status .bufferViewTooSmall)
      else
        (gather extent.data extent.start a.count stride.toNat offsets a.componentType).mapError
          .fault

/-- The indices stored from a start on; a negative count takes all that are there. -/
def sparseIndices (bs : Bytes) (start count : Int) (c : ComponentType) :
    Except GatherFault (List Nat) :=
  if !(Bytes.isWord start && Bytes.isWord count) then .error .beyondWord
  else if start < 0 ∨ (bs.length : Int) < start then .error .outsideBuffer
  else
    let rest := bs.length - start.toNat
    if count < 0 ∧ rest % c.size ≠ 0 then .error .partialIndex
    else if (rest : Int) < count * c.size then .error .outsideBuffer
    else
      let n := if count < 0 then rest / c.size else count.toNat
      .ok ((List.range n).map fun i => Bytes.natAt bs (start.toNat + i * c.size) c.size)

/-- The elements with replacements put in, the later ones last. -/
def scatter (elements : List Element) : List Nat → List Element → List Element
  | index :: indices, element :: replacements =>
      scatter (elements.set index element) indices replacements
  | _, _ => elements

/-- The elements with those that the sparse part lists replaced. -/
def applySparse (d : Document) (a : Accessor) (s : Sparse) (elements : List Element) :
    Except ViewFailure (List Element) :=
  let size := a.type.elementSize a.componentType
  match s.indices.componentType.filter ComponentType.isIndex with
  | none => .error (.status .invalidSparse)
  | some indexType => do
      let indices ← (resolve d s.indices.bufferView s.indices.byteOffset).mapError .status
      let values ← (resolve d s.values.bufferView s.values.byteOffset).mapError .status
      if indices.available < s.count * indexType.size ∨ values.available < s.count * size then
        .error (.status .invalidSparse)
      else
        let targets ← (sparseIndices indices.data indices.start s.count indexType).mapError .fault
        if s.count ≠ 0 ∧ targets = [] then .error (.fault .noIndices)
        else if targets.any fun i => a.count ≤ i then .error (.status .invalidSparse)
        else
          let replacements ←
            (gather values.data values.start s.count size
              (a.type.offsets a.componentType.size) a.componentType).mapError .fault
          .ok (scatter elements targets replacements)

/-- The greater of a number and minus one. -/
def atLeastMinusOne (x : Binary64) : Binary64 :=
  let minusOne : Binary64 := ⟨0xbff0000000000000⟩
  if x.le minusOne then minusOne else x

def normalize (divisor : Nat) : Number → Number
  | .int n => .float (atLeastMinusOne (.ofRatio (n < 0) n.natAbs divisor))
  | .float x => .float x

/-- The divisor of an accessor whose integers stand for fractions. -/
def Accessor.divisor? (a : Accessor) : Option Nat :=
  if a.normalized then a.componentType.divisor? else none

def elementsOf (d : Document) (a : Accessor) : Except ViewFailure (List Element) := do
  let base ← baseElements d a
  let elements ←
    match a.sparse with
    | some s => applySparse d a s base
    | none => .ok base
  match a.divisor? with
  | some divisor => .ok (elements.map (·.map (normalize divisor)))
  | none => .ok elements

structure AccessorView where
  status : ViewStatus
  accessor : Option Accessor
  elements : List Element

/-- An index that names no element of a view. -/
structure IndexProblem where
  index : Int
  count : Nat
deriving DecidableEq, Repr

def IndexProblem.message (p : IndexProblem) : String :=
  s!"accessor element {p.index} out of range for {p.count} elements"

namespace AccessorView

def ofDocument (d : Document) (index : Int) : Except GatherFault AccessorView :=
  match elementAt? d.accessors index with
  | none => .ok ⟨.invalidAccessorIndex, none, []⟩
  | some a =>
      match elementsOf d a with
      | .ok elements => .ok ⟨.valid, some a, elements⟩
      | .error (.status status) => .ok ⟨status, some a, []⟩
      | .error (.fault fault) => .error fault

def isValid (v : AccessorView) : Bool := v.status == .valid

def size (v : AccessorView) : Nat := v.elements.length

/-- The number of components of an element, where the view has elements to speak of. -/
def width? (v : AccessorView) : Option Nat :=
  if v.isValid then v.accessor.map (·.type.components) else none

/-- The type of the components. -/
def componentName (v : AccessorView) : String :=
  match v.isValid, v.accessor with
  | true, some a => if a.divisor?.isSome then "float64" else a.componentType.name
  | _, _ => "float64"

/-- The element at an index; negative ones count from the end. -/
def get (v : AccessorView) (index : Int) : Except IndexProblem Element :=
  let place := if index < 0 then index + v.size else index
  match elementAt? v.elements place with
  | some element => .ok element
  | none => .error ⟨place, v.size⟩

end AccessorView

end Gltf
