import Gltf.Bytes

/-!
UTF-8 as a machine that takes one byte at a time. Between characters it waits for a lead byte;
inside one it knows how many continuation bytes are missing and the bounds of the next. The bounds
exclude overlong forms, surrogates and values past U+10FFFF, so what the machine finishes is a
Unicode scalar value.
-/

namespace Gltf.Utf8

/-- Why bytes are no UTF-8 text. -/
inductive Problem where
  | startByte
  | continuationByte
  | unexpectedEnd
deriving DecidableEq, Repr

def Problem.message : Problem → String
  | .startByte => "invalid start byte"
  | .continuationByte => "invalid continuation byte"
  | .unexpectedEnd => "unexpected end of data"

/-- A character of which `missing + 1` continuation bytes are still to come, the next from `low` to
`high`. -/
structure Pending where
  value : Nat
  missing : Nat
  low : UInt8
  high : UInt8
deriving DecidableEq, Repr

inductive Lead where
  | ascii (c : Char)
  | pending (p : Pending)
  | invalid

def lead (b : UInt8) : Lead :=
  if b < 0x80 then .ascii (Char.ofNat b.toNat)
  else if b < 0xc2 then .invalid
  else if b < 0xe0 then .pending ⟨b.toNat % 32, 0, 0x80, 0xbf⟩
  else if b = 0xe0 then .pending ⟨b.toNat % 16, 1, 0xa0, 0xbf⟩
  else if b = 0xed then .pending ⟨b.toNat % 16, 1, 0x80, 0x9f⟩
  else if b < 0xf0 then .pending ⟨b.toNat % 16, 1, 0x80, 0xbf⟩
  else if b = 0xf0 then .pending ⟨b.toNat % 8, 2, 0x90, 0xbf⟩
  else if b < 0xf4 then .pending ⟨b.toNat % 8, 2, 0x80, 0xbf⟩
  else if b = 0xf4 then .pending ⟨b.toNat % 8, 2, 0x80, 0x8f⟩
  else .invalid

inductive Next where
  | char (c : Char)
  | pending (p : Pending)
  | invalid

def Pending.step (p : Pending) (b : UInt8) : Next :=
  if p.low ≤ b ∧ b ≤ p.high then
    let value := p.value * 64 + b.toNat % 64
    match p.missing with
    | 0 => .char (Char.ofNat value)
    | missing + 1 => .pending ⟨value, missing, 0x80, 0xbf⟩
  else .invalid

structure Error where
  problem : Problem
  offset : Nat
deriving DecidableEq, Repr

/-- Decodes with the characters so far in reverse, the offset of the character at hand, the offset
of the next byte and the state of the machine. -/
def decodeFrom (done : List Char) (start here : Nat) :
    Option Pending → Bytes → Except Error (List Char)
  | none, [] => .ok done.reverse
  | some _, [] => .error ⟨.unexpectedEnd, start⟩
  | none, b :: bs =>
      match lead b with
      | .ascii c => decodeFrom (c :: done) (here + 1) (here + 1) none bs
      | .pending p => decodeFrom done start (here + 1) (some p) bs
      | .invalid => .error ⟨.startByte, start⟩
  | some p, b :: bs =>
      match p.step b with
      | .char c => decodeFrom (c :: done) (here + 1) (here + 1) none bs
      | .pending p => decodeFrom done start (here + 1) (some p) bs
      | .invalid => .error ⟨.continuationByte, start⟩

/-- The characters of a text, or the first problem with the offset of the character it is in. -/
def decode (bs : Bytes) : Except Error (List Char) := decodeFrom [] 0 0 none bs

def replacement : Char := '\uFFFD'

/-- The characters of a text in which each ill-formed stretch, as long as it could still have become
a character, is replaced. -/
def decodeLossy : Option Pending → Bytes → List Char
  | none, [] => []
  | some _, [] => [replacement]
  | state, b :: bs =>
      let fromLead (before : List Char) : List Char :=
        match lead b with
        | .ascii c => before ++ c :: decodeLossy none bs
        | .pending p => before ++ decodeLossy (some p) bs
        | .invalid => before ++ replacement :: decodeLossy none bs
      match state with
      | none => fromLead []
      | some p =>
          match p.step b with
          | .char c => c :: decodeLossy none bs
          | .pending p => decodeLossy (some p) bs
          | .invalid => fromLead [replacement]

/-- The bytes of one character. -/
def encodeChar (c : Char) : Bytes :=
  let n := c.toNat
  if n < 0x80 then [UInt8.ofNat n]
  else if n < 0x800 then [UInt8.ofNat (0xc0 + n / 64), UInt8.ofNat (0x80 + n % 64)]
  else if n < 0x10000 then
    [UInt8.ofNat (0xe0 + n / 4096), UInt8.ofNat (0x80 + n / 64 % 64), UInt8.ofNat (0x80 + n % 64)]
  else
    [UInt8.ofNat (0xf0 + n / 262144), UInt8.ofNat (0x80 + n / 4096 % 64),
      UInt8.ofNat (0x80 + n / 64 % 64), UInt8.ofNat (0x80 + n % 64)]

def encode (cs : List Char) : Bytes := cs.flatMap encodeChar

/-- The number of bytes of a text. -/
def size (cs : List Char) : Nat := (encode cs).length

def encodeString (s : String) : Bytes := encode s.toList

@[simp] theorem encode_nil : encode [] = [] := rfl

@[simp] theorem encode_cons (c : Char) (cs : List Char) :
    encode (c :: cs) = encodeChar c ++ encode cs := rfl

@[simp] theorem encode_append (as bs : List Char) : encode (as ++ bs) = encode as ++ encode bs := by
  simp [encode]

end Gltf.Utf8
