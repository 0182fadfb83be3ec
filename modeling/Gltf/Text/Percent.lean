import Gltf.Text.Utf8

/-!
Percent-encoding. An escape is a percent sign with two hexadecimal digits; a percent sign without
them stands for itself.
-/

namespace Gltf.Percent

def hexDigit? (b : UInt8) : Option UInt8 :=
  if 0x30 ≤ b ∧ b ≤ 0x39 then some (b - 0x30)
  else if 0x41 ≤ b ∧ b ≤ 0x46 then some (b - 0x37)
  else if 0x61 ≤ b ∧ b ≤ 0x66 then some (b - 0x57)
  else none

/-- The byte that three bytes escape. -/
def escape? (sign high low : UInt8) : Option UInt8 :=
  if sign = 0x25 then
    match hexDigit? high, hexDigit? low with
    | some h, some l => some (16 * h + l)
    | _, _ => none
  else none

def decodeBytes : Bytes → Bytes
  | b :: high :: low :: rest =>
      match escape? b high low with
      | some value => value :: decodeBytes rest
      | none => b :: decodeBytes (high :: low :: rest)
  | bs => bs

/-- The bytes that a text stands for, its own characters in UTF-8. -/
def decode (cs : List Char) : Bytes := decodeBytes (Utf8.encode cs)

/-- The text that a text stands for; escapes that spell no characters become replacement
characters. -/
def decodeText (cs : List Char) : List Char := Utf8.decodeLossy none (decode cs)

example : decode "%4%31%C3%a9".toList = [0x25, 0x34, 0x31, 0xc3, 0xa9] := by decide +kernel

end Gltf.Percent
