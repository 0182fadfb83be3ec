import Gltf.Bytes

/-!
Base64 without blanks. Data characters gather in quads of six bits each; padding may end a quad that
holds two or three of them, and then ends the text. Padding behind a full quad stands for nothing.
-/

namespace Gltf.Base64

inductive Problem where
  | alphabet
  | leadingPadding
  | dataAfterPadding
  | excessData
  | incompletePadding
  | loneCharacter (count : Nat)
deriving DecidableEq, Repr

def Problem.message : Problem → String
  | .alphabet => "Only base64 data is allowed"
  | .leadingPadding => "Leading padding not allowed"
  | .dataAfterPadding => "Discontinuous padding not allowed"
  | .excessData => "Excess data after padding"
  | .incompletePadding => "Incorrect padding"
  | .loneCharacter count =>
      s!"Invalid base64-encoded string: number of data characters ({count}) cannot be 1 more than a multiple of 4"

def paddingByte : UInt8 := 0x3d

def sextet? (b : UInt8) : Option Nat :=
  let n := b.toNat
  if 0x41 ≤ n ∧ n ≤ 0x5a then some (n - 0x41)
  else if 0x61 ≤ n ∧ n ≤ 0x7a then some (n - 0x61 + 26)
  else if 0x30 ≤ n ∧ n ≤ 0x39 then some (n - 0x30 + 52)
  else if n = 0x2b then some 62
  else if n = 0x2f then some 63
  else none

/-- Decodes with the bytes so far in reverse, the number of data characters in the open quad, the
bits of it that make no byte yet, and the number of padding characters in it. -/
def decodeFrom (done : Bytes) (filled held pads : Nat) (padded : Bool) :
    Bytes → Except Problem Bytes
  | [] =>
      match filled with
      | 0 => .ok done.reverse
      | 1 => .error (.loneCharacter (done.length / 3 * 4 + 1))
      | _ => .error .incompletePadding
  | b :: bs =>
      if b = paddingByte then
        if 2 ≤ filled ∧ 4 ≤ filled + pads + 1 then
          if bs.isEmpty then .ok done.reverse else .error .excessData
        else decodeFrom done filled held (if 2 ≤ filled then pads + 1 else pads) true bs
      else
        match sextet? b with
        | none => .error .alphabet
        | some v =>
            if padded then .error .dataAfterPadding
            else
              match filled with
              | 0 => decodeFrom done 1 v 0 false bs
              | 1 => decodeFrom (UInt8.ofNat (held * 4 + v / 16) :: done) 2 (v % 16) 0 false bs
              | 2 => decodeFrom (UInt8.ofNat (held * 16 + v / 4) :: done) 3 (v % 4) 0 false bs
              | _ => decodeFrom (UInt8.ofNat (held * 64 + v) :: done) 0 0 0 false bs

def decode (bs : Bytes) : Except Problem Bytes :=
  if bs.head? = some paddingByte then .error .leadingPadding
  else decodeFrom [] 0 0 0 false bs

end Gltf.Base64
