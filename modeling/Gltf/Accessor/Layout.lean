import Gltf.Document

/-!
How the elements of an accessor lie in bytes: the size and reading of a component, the offsets of
the components in an element, and the size of an element.
-/

namespace Gltf

namespace ComponentType

/-- The bytes of a component. -/
def size : ComponentType → Nat
  | .byte | .unsignedByte => 1
  | .short | .unsignedShort => 2
  | .unsignedInt | .float => 4

def name : ComponentType → String
  | .byte => "int8"
  | .unsignedByte => "uint8"
  | .short => "int16"
  | .unsignedShort => "uint16"
  | .unsignedInt => "uint32"
  | .float => "float32"

/-- The component that bytes hold. -/
def decode (t : ComponentType) (bs : Bytes) : Number :=
  let n := Bytes.toNatLE bs
  match t with
  | .byte => .int (Bytes.signed 1 n)
  | .short => .int (Bytes.signed 2 n)
  | .unsignedByte | .unsignedShort | .unsignedInt => .int n
  | .float => .float (.ofBinary32 n)

def zero : ComponentType → Number
  | .float => .float Binary64.zero
  | _ => .int 0

/-- The greatest integer, which normalization maps to one. -/
def divisor? : ComponentType → Option Nat
  | .byte => some 127
  | .unsignedByte => some 255
  | .short => some 32767
  | .unsignedShort => some 65535
  | .unsignedInt => some 4294967295
  | .float => none

/-- Whether sparse indices may be of this type. -/
def isIndex : ComponentType → Bool
  | .unsignedByte | .unsignedShort | .unsignedInt => true
  | _ => false

end ComponentType

namespace AccessorType

/-- The rows and columns of a matrix type. -/
def order? : AccessorType → Option Nat
  | .mat2 => some 2
  | .mat3 => some 3
  | .mat4 => some 4
  | _ => none

def components : AccessorType → Nat
  | .scalar => 1
  | .vec2 => 2
  | .vec3 => 3
  | .vec4 => 4
  | .mat2 => 4
  | .mat3 => 9
  | .mat4 => 16

def alignTo4 (n : Nat) : Nat := n + (4 - n % 4) % 4

/-- The offsets of the components in an element. The columns of a matrix begin at multiples of
four bytes. -/
def offsets (t : AccessorType) (componentSize : Nat) : List Nat :=
  match t.order? with
  | none => (List.range t.components).map (· * componentSize)
  | some order =>
      let columnSize := alignTo4 (order * componentSize)
      (List.range order).flatMap fun column =>
        (List.range order).map fun row => column * columnSize + row * componentSize

/-- The bytes from the begin of an element to the end of its last component. -/
def span (t : AccessorType) (componentSize : Nat) : Nat :=
  ((t.offsets componentSize).getLast?.getD 0) + componentSize

def elementSize (t : AccessorType) (c : ComponentType) : Nat :=
  match t with
  | .mat2 | .mat3 => alignTo4 (t.span c.size)
  | _ => t.span c.size

end AccessorType

end Gltf
