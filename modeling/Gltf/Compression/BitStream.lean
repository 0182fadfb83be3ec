import Gltf.Bytes

/-!
Bytes read bit by bit, least significant bit first. A stream knows how many bits are taken, and so
how many bytes are touched; taking bits loses none of them (`taken_add_length_drop`).
-/

namespace Gltf

structure BitStream where
  ahead : List Bool
  taken : Nat
deriving DecidableEq, Repr

namespace BitStream

def bitsOfByte (b : UInt8) : List Bool := (List.range 8).map fun i => b.toNat.testBit i

def ofBytes (bs : Bytes) : BitStream := ⟨bs.flatMap bitsOfByte, 0⟩

def next? (s : BitStream) : Option (Bool × BitStream) :=
  match s.ahead with
  | [] => none
  | bit :: ahead => some (bit, ⟨ahead, s.taken + 1⟩)

/-- The bytes of which a bit is taken. -/
def touched (s : BitStream) : Nat := (s.taken + 7) / 8

def drop (n : Nat) (s : BitStream) : BitStream := ⟨s.ahead.drop n, s.taken + n⟩

/-- Goes on to the next whole byte. -/
def align (s : BitStream) : BitStream := s.drop (8 * s.touched - s.taken)

theorem taken_add_length_drop {n : Nat} {s : BitStream} (h : n ≤ s.ahead.length) :
    (s.drop n).taken + (s.drop n).ahead.length = s.taken + s.ahead.length := by
  simp only [drop, List.length_drop]
  omega

end BitStream

end Gltf
