import Gltf.Compression.Huffman

/-!
Deflate: blocks that are stored or made of prefix codes for literals and for copies of earlier
output. Decoding may be limited to a number of bytes; it then goes on until one more byte is due.
Each byte is decoded together with the amount of input that it takes.
-/

namespace Gltf.Deflate

inductive Problem where
  | blockType
  | storedLengths
  | tooManySymbols
  | codeLengths
  | lengthRepeat
  | noEndOfBlock
  | literalLengths
  | distances
  | literal
  | distance
  | distanceTooFar
deriving DecidableEq, Repr

def Problem.message : Problem → String
  | .blockType => "invalid block type"
  | .storedLengths => "invalid stored block lengths"
  | .tooManySymbols => "too many length or distance symbols"
  | .codeLengths => "invalid code lengths set"
  | .lengthRepeat => "invalid bit length repeat"
  | .noEndOfBlock => "invalid code -- missing end-of-block"
  | .literalLengths => "invalid literal/lengths set"
  | .distances => "invalid distances set"
  | .literal => "invalid literal/length code"
  | .distance => "invalid distance code"
  | .distanceTooFar => "invalid distance too far back"

/-- Why decoding stops: the input ends too early, or is no deflate stream, which shows once so many
bytes are touched, or there is no room for the next byte. -/
inductive Stop where
  | truncated
  | invalid (problem : Problem) (touched : Nat)
  | full
deriving DecidableEq, Repr

def invalid {α : Type} (problem : Problem) (s : BitStream) : Except Stop α :=
  .error (.invalid problem s.touched)

/-- The number that the next bits spell, least significant first. -/
def takeBits : Nat → BitStream → Except Stop (Nat × BitStream)
  | 0, s => .ok (0, s)
  | n + 1, s =>
      match s.next? with
      | none => .error .truncated
      | some (bit, s) => do
          let (value, rest) ← takeBits n s
          .ok (bit.toNat + 2 * value, rest)

def takeWord (code : Huffman.Code) (problem : Problem) (s : BitStream) :
    Except Stop (Nat × BitStream) :=
  match code.decode s with
  | .symbol value rest => .ok (value, rest)
  | .moreBits => .error .truncated
  | .noWord rest => invalid problem rest

/-- Base and number of extra bits of each length symbol, from symbol 257 on. -/
def lengthTable : List (Nat × Nat) :=
  [(3, 0), (4, 0), (5, 0), (6, 0), (7, 0), (8, 0), (9, 0), (10, 0), (11, 1), (13, 1), (15, 1),
    (17, 1), (19, 2), (23, 2), (27, 2), (31, 2), (35, 3), (43, 3), (51, 3), (59, 3), (67, 4),
    (83, 4), (99, 4), (115, 4), (131, 5), (163, 5), (195, 5), (227, 5), (258, 0)]

/-- Base and number of extra bits of each distance symbol. -/
def distanceTable : List (Nat × Nat) :=
  [(1, 0), (2, 0), (3, 0), (4, 0), (5, 1), (7, 1), (9, 2), (13, 2), (17, 3), (25, 3), (33, 4),
    (49, 4), (65, 5), (97, 5), (129, 6), (193, 6), (257, 7), (385, 7), (513, 8), (769, 8),
    (1025, 9), (1537, 9), (2049, 10), (3073, 10), (4097, 11), (6145, 11), (8193, 12), (12289, 12),
    (16385, 13), (24577, 13)]

/-- A number given by a symbol and the extra bits behind it. -/
def takeExtended (table : List (Nat × Nat)) (symbol : Nat) (problem : Problem) (s : BitStream) :
    Except Stop (Nat × BitStream) :=
  match table[symbol]? with
  | none => invalid problem s
  | some (base, extra) => do
      let (n, s) ← takeBits extra s
      .ok (base + n, s)

structure Codes where
  literals : Huffman.Code
  distances : Huffman.Code

def fixedCodes : Codes where
  literals := .ofLengths
    (List.replicate 144 8 ++ List.replicate 112 9 ++ List.replicate 24 7 ++ List.replicate 8 8)
  distances := .ofLengths (List.replicate 32 5)

inductive Symbol where
  | literal (byte : UInt8)
  | copy (length distance : Nat)
  | endOfBlock
deriving DecidableEq, Repr

def takeSymbol (codes : Codes) (s : BitStream) : Except Stop (Symbol × BitStream) := do
  let (symbol, s) ← takeWord codes.literals .literal s
  if symbol < 256 then .ok (.literal (UInt8.ofNat symbol), s)
  else if symbol = 256 then .ok (.endOfBlock, s)
  else
    let (length, s) ← takeExtended lengthTable (symbol - 257) .literal s
    let (distanceSymbol, s) ← takeWord codes.distances .distance s
    let (distance, s) ← takeExtended distanceTable distanceSymbol .distance s
    .ok (.copy length distance, s)

/-- A decoded byte, with the bytes of input that are touched when there has to be room for it and
when it is known. -/
structure Produced where
  byte : UInt8
  due : Nat
  known : Nat
deriving DecidableEq, Repr

abbrev Output := Array Produced

def Output.bytes (out : Output) : Bytes := out.toList.map (·.byte)

/-- Why decoding stops, and what it has produced until then. -/
structure Halt where
  stop : Stop
  out : Output
deriving DecidableEq, Repr

/-- Reads without producing anything. -/
def reading {α : Type} (out : Output) (result : Except Stop α) : Except Halt α :=
  result.mapError fun stop => ⟨stop, out⟩

/-- Whether the next byte would exceed the limit. -/
def isFull (limit : Option Nat) (out : Output) : Bool := limit.any (· ≤ out.size)

/-- Appends bytes that stand `distance` before the end, which may include ones just appended. -/
def copyBack (limit : Option Nat) (distance touched : Nat) : Nat → Output → Except Halt Output
  | 0, out => .ok out
  | length + 1, out =>
      if isFull limit out then .error ⟨.full, out⟩
      else
        match if distance ≤ out.size then out[out.size - distance]? else none with
        | none => .error ⟨.invalid .distanceTooFar touched, out⟩
        | some source =>
            copyBack limit distance touched length (out.push ⟨source.byte, touched, touched⟩)

/-- Decodes up to the end of a block. The fuel is any bound on the number of symbols. -/
def coded (limit : Option Nat) (codes : Codes) :
    Nat → Output → BitStream → Except Halt (Output × BitStream)
  | 0, out, _ => .error ⟨.truncated, out⟩
  | fuel + 1, out, s => do
      let (symbol, s) ← reading out (takeSymbol codes s)
      match symbol with
      | .literal byte =>
          if isFull limit out then .error ⟨.full, out⟩
          else coded limit codes fuel (out.push ⟨byte, s.touched, s.touched⟩) s
      | .copy length distance =>
          let out ← copyBack limit distance s.touched length out
          coded limit codes fuel out s
      | .endOfBlock => .ok (out, s)

/-- Appends whole bytes as they are. -/
def takeBytes (limit : Option Nat) :
    Nat → Output → BitStream → Except Halt (Output × BitStream)
  | 0, out, s => .ok (out, s)
  | n + 1, out, s =>
      if isFull limit out then .error ⟨.full, out⟩
      else do
        let (value, rest) ← reading out (takeBits 8 s)
        takeBytes limit n (out.push ⟨UInt8.ofNat value, s.touched, rest.touched⟩) rest

def stored (limit : Option Nat) (out : Output) (s : BitStream) :
    Except Halt (Output × BitStream) := do
  let (length, s) ← reading out (takeBits 16 s.align)
  let (complement, s) ← reading out (takeBits 16 s)
  if length + complement ≠ 0xffff then reading out (invalid .storedLengths s)
  else takeBytes limit length out s

/-- The order in which the lengths of the words for lengths are stored. -/
def lengthOrder : List Nat := [16, 17, 18, 0, 8, 7, 9, 6, 10, 5, 11, 4, 12, 3, 13, 2, 14, 1, 15]

def takeLengths : Nat → BitStream → Except Stop (List Nat × BitStream)
  | 0, s => .ok ([], s)
  | n + 1, s => do
      let (length, s) ← takeBits 3 s
      let (lengths, s) ← takeLengths n s
      .ok (length :: lengths, s)

/-- Reads one word of the code for lengths. If it has no words, every bit says zero. -/
def takeLengthSymbol (code : Huffman.Code) (s : BitStream) : Except Stop (Nat × BitStream) :=
  if code.levels.isEmpty then (takeBits 1 s).map fun (_, s) => (0, s)
  else takeWord code .codeLengths s

/-- What a symbol of the code for lengths adds to the lengths so far: a length, or some copies of the
last one or of zero. -/
def takeRun (symbol : Nat) (done : List Nat) (s : BitStream) :
    Except Stop (List Nat × BitStream) :=
  match symbol with
  | 16 => do
      let (n, s) ← takeBits 2 s
      match done.getLast? with
      | none => invalid .lengthRepeat s
      | some length => .ok (List.replicate (3 + n) length, s)
  | 17 => (takeBits 3 s).map fun (n, s) => (List.replicate (3 + n) 0, s)
  | 18 => (takeBits 7 s).map fun (n, s) => (List.replicate (11 + n) 0, s)
  | length => .ok ([length], s)

/-- The lengths of the words of a block's two codes, which are themselves coded. The fuel is any
bound on the number of symbols. -/
def codedLengths (code : Huffman.Code) (total : Nat) :
    Nat → List Nat → BitStream → Except Stop (List Nat × BitStream)
  | 0, done, s => .ok (done, s)
  | fuel + 1, done, s =>
      if total ≤ done.length then .ok (done, s)
      else do
        let (symbol, s) ← takeLengthSymbol code s
        let (run, s) ← takeRun symbol done s
        if total < done.length + run.length then invalid .lengthRepeat s
        else codedLengths code total fuel (done ++ run) s

def takeCodes (s : BitStream) : Except Stop (Codes × BitStream) := do
  let (moreLiterals, s) ← takeBits 5 s
  let (moreDistances, s) ← takeBits 5 s
  let (moreLengths, s) ← takeBits 4 s
  let literals := 257 + moreLiterals
  let distances := 1 + moreDistances
  if 286 < literals ∨ 30 < distances then invalid .tooManySymbols s
  else
    let (stored, s) ← takeLengths (4 + moreLengths) s
    let lengths := (List.range 19).map fun symbol =>
      ((lengthOrder.idxOf? symbol).bind (stored[·]?)).getD 0
    if !Huffman.isUsable lengths false then invalid .codeLengths s
    else
      let total := literals + distances
      let (all, s) ← codedLengths (.ofLengths lengths) total total [] s
      if (all[256]?).getD 0 = 0 then invalid .noEndOfBlock s
      else if !Huffman.isUsable (all.take literals) true then invalid .literalLengths s
      else if !Huffman.isUsable (all.drop literals) true then invalid .distances s
      else .ok (⟨.ofLengths (all.take literals), .ofLengths (all.drop literals)⟩, s)

/-- Decodes a block of some type. The fuel is any bound on the number of its symbols. -/
def block (limit : Option Nat) (fuel type : Nat) (out : Output) (s : BitStream) :
    Except Halt (Output × BitStream) :=
  match type with
  | 0 => stored limit out s
  | 1 => coded limit fixedCodes fuel out s
  | 2 => do
      let (codes, s) ← reading out (takeCodes s)
      coded limit codes fuel out s
  | _ => reading out (invalid .blockType s)

/-- Decodes up to the end of the last block. The fuel is any bound on the number of bits. -/
def blocks (limit : Option Nat) : Nat → Output → BitStream → Except Halt (Output × BitStream)
  | 0, out, _ => .error ⟨.truncated, out⟩
  | fuel + 1, out, s => do
      let (last, s) ← reading out (takeBits 1 s)
      let (type, s) ← reading out (takeBits 2 s)
      let (out, s) ← block limit fuel type out s
      if last = 1 then .ok (out, s) else blocks limit fuel out s

/-- What the stream decodes to, and what follows it. -/
def inflate (limit : Option Nat) (s : BitStream) : Except Halt (Output × BitStream) :=
  blocks limit s.ahead.length #[] s

end Gltf.Deflate
