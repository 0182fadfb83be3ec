import Gltf.Compression.BitStream

/-!
Canonical prefix codes. A code is given by the length of each symbol's word; words of one length are
consecutive numbers in the order of their symbols, and shorter words come first.
-/

namespace Gltf.Huffman

def maxLength : Nat := 15

/-- The words that are left over at each length, or none if there are too many words. -/
def leftover? (lengths : List Nat) : Option Nat :=
  (List.range maxLength).foldl
    (fun left i => do
      let left ← left
      let used := lengths.count (i + 1)
      if 2 * left < used then none else some (2 * left - used))
    (some 1)

def longest (lengths : List Nat) : Nat := lengths.foldl max 0

/-- A code is usable if its words fill the space of words. A code that is only read when needed may
also have no words at all, or one word of one bit. -/
def isUsable (lengths : List Nat) (lenient : Bool) : Bool :=
  longest lengths == 0 ||
    match leftover? lengths with
    | none => false
    | some 0 => true
    | some _ => lenient && longest lengths == 1

/-- The symbols with words of one length. -/
def symbolsOf (lengths : List Nat) (length : Nat) : List Nat :=
  (List.range lengths.length).filter fun symbol => lengths[symbol]? == some length

/-- The symbols by the length of their words, from length one on. -/
structure Code where
  levels : List (List Nat)
deriving DecidableEq, Repr

def Code.ofLengths (lengths : List Nat) : Code :=
  ⟨(List.range (longest lengths)).map fun i => symbolsOf lengths (i + 1)⟩

inductive Decoded where
  | symbol (value : Nat) (rest : BitStream)
  | moreBits
  | noWord (rest : BitStream)
deriving DecidableEq, Repr

/-- Reads one word: `word` are the bits so far, less the first word of their length. -/
def decodeFrom (word : Nat) : List (List Nat) → BitStream → Decoded
  | [], s => .noWord s
  | symbols :: levels, s =>
      match s.next? with
      | none => .moreBits
      | some (bit, s) =>
          let word := 2 * word + bit.toNat
          match symbols[word]? with
          | some value => .symbol value s
          | none => decodeFrom (word - symbols.length) levels s

/-- Reads one word. That there are none shows at the first bit. -/
def Code.decode (code : Code) (s : BitStream) : Decoded :=
  match s.next?, code.levels with
  | none, _ => .moreBits
  | some (_, rest), [] => .noWord rest
  | some _, levels => decodeFrom 0 levels s

example : (Code.ofLengths [2, 1, 3, 3]).decode ⟨[true, true, false, true], 0⟩ =
    .symbol 2 ⟨[true], 3⟩ := by
  decide +kernel

end Gltf.Huffman
