import Gltf.Json

/-!
Numbers for typed targets. An integral target takes a number whose exact value is an integer in its
range, a floating point target any finite number in its range; nothing is truncated.
-/

namespace Gltf

inductive NumberKind where
  | int8
  | uint8
  | int16
  | uint16
  | int32
  | uint32
  | int64
  | uint64
  | float32
  | float64
deriving DecidableEq, Repr

namespace NumberKind

def all : List NumberKind :=
  [.int8, .uint8, .int16, .uint16, .int32, .uint32, .int64, .uint64, .float32, .float64]

def label : NumberKind → String
  | .int8 => "int8"
  | .uint8 => "uint8"
  | .int16 => "int16"
  | .uint16 => "uint16"
  | .int32 => "int32"
  | .uint32 => "uint32"
  | .int64 => "int64"
  | .uint64 => "uint64"
  | .float32 => "float32"
  | .float64 => "float64"

/-- What a target can hold: integers or finite numbers between two bounds. -/
inductive Range where
  | integers (low high : Int)
  | floats (low high : Binary64)

def greatestBinary32 : Binary64 := ⟨0x47efffffe0000000⟩

def leastBinary32 : Binary64 := ⟨0xc7efffffe0000000⟩

def greatestBinary64 : Binary64 := ⟨0x7fefffffffffffff⟩

def leastBinary64 : Binary64 := ⟨0xffefffffffffffff⟩

def range : NumberKind → Range
  | .int8 => .integers (-0x80) 0x7f
  | .uint8 => .integers 0 0xff
  | .int16 => .integers (-0x8000) 0x7fff
  | .uint16 => .integers 0 0xffff
  | .int32 => .integers (-0x80000000) 0x7fffffff
  | .uint32 => .integers 0 0xffffffff
  | .int64 => .integers (-0x8000000000000000) 0x7fffffffffffffff
  | .uint64 => .integers 0 0xffffffffffffffff
  | .float32 => .floats leastBinary32 greatestBinary32
  | .float64 => .floats leastBinary64 greatestBinary64

def isIntegral (kind : NumberKind) : Bool :=
  match kind.range with
  | .integers _ _ => true
  | .floats _ _ => false

def minimum (kind : NumberKind) : Number :=
  match kind.range with
  | .integers low _ => .int low
  | .floats low _ => .float low

def maximum (kind : NumberKind) : Number :=
  match kind.range with
  | .integers _ high => .int high
  | .floats _ high => .float high

end NumberKind

namespace Number

/-- The integer that a number is, if it is one. -/
def toInt? : Number → Option Int
  | .int n => some n
  | .float x => x.toInt?

/-- The binary64 nearest to a number. -/
def toFloat : Number → Binary64
  | .int n => .ofInt n
  | .float x => x

def coerce? (kind : NumberKind) (n : Number) : Option Number :=
  match kind.range with
  | .integers low high =>
      match n.toInt? with
      | some i => if low ≤ i ∧ i ≤ high then some (.int i) else none
      | none => none
  | .floats low high =>
      let x := n.toFloat
      if x.isFinite ∧ low.le x ∧ x.le high then some (.float x) else none

end Number

namespace Json

def coerce? (kind : NumberKind) : Json → Option Number
  | .number n => n.coerce? kind
  | _ => none

def coerceOr (kind : NumberKind) (fallback : Number) (value : Json) : Number :=
  (value.coerce? kind).getD fallback

end Json

end Gltf
