import Gltf.Bytes

/-!
The header of a KTX2 file: twelve bytes of identifier, nine words, an index of three sections, and
for each stored level where it lies. `Header.read` checks that every level lies in the file.
-/

namespace Gltf.Ktx2

def identifier : Bytes :=
  [0xab, 0x4b, 0x54, 0x58, 0x20, 0x32, 0x30, 0xbb, 0x0d, 0x0a, 0x1a, 0x0a]

/-- The bytes before the index of levels. -/
def fixedSize : Nat := 80

/-- The bytes of one entry in the index of levels. -/
def levelSize : Nat := 24

inductive Problem where
  | noHeader
  | noIdentifier
  | zeroWidth
  | faceCount (found : Nat)
  | supercompression (scheme : Nat)
  | levelCount (found possible width height : Nat)
  | levelIndexPastEnd
  | levelPastEnd (level : Nat)
  | unsupportedFormat (vkFormat : Nat)
  | levelLength (level found expected : Nat)
deriving DecidableEq, Repr

def Problem.message : Problem → String
  | .noHeader => "KTX2 data is too short to hold a header."
  | .noIdentifier => "KTX2 data does not start with the KTX 20 identifier."
  | .zeroWidth => "KTX2 pixelWidth must not be zero."
  | .faceCount found => s!"KTX2 faceCount must be 1 or 6, found {found}."
  | .supercompression scheme => s!"Unsupported KTX2 supercompression scheme {scheme}."
  | .levelCount found possible width height =>
      s!"KTX2 levelCount {found} exceeds the {possible} levels possible for a {width}x{height} image."
  | .levelIndexPastEnd => "KTX2 level index extends past the end of the data."
  | .levelPastEnd level => s!"KTX2 level {level} extends past the end of the data."
  | .unsupportedFormat vkFormat => s!"Unsupported KTX2 vkFormat {vkFormat}."
  | .levelLength level found expected =>
      s!"KTX2 level {level} holds {found} bytes, expected {expected}."

structure Level where
  offset : Nat
  length : Nat
  uncompressedLength : Nat
deriving DecidableEq, Repr

structure Section where
  offset : Nat
  length : Nat
deriving DecidableEq, Repr

structure Header where
  vkFormat : Nat
  typeSize : Nat
  width : Nat
  height : Nat
  depth : Nat
  layerCount : Nat
  faceCount : Nat
  levelCount : Nat
  supercompression : Nat
  /-- The data format descriptor. -/
  dfd : Section
  /-- The key and value data. -/
  kvd : Section
  /-- The supercompression global data. -/
  sgd : Section
  levels : List Level
deriving DecidableEq, Repr

def isKtx2 (bs : Bytes) : Bool := bs.take 12 == identifier

namespace Header

/-- Whether the pixels are for a Basis Universal transcoder. -/
def isBasis (h : Header) : Bool := h.vkFormat == 0

/-- The number of levels in the file; a level count of zero leaves the smaller ones to be made at
runtime. -/
def storedLevelCount (h : Header) : Nat := max 1 h.levelCount

/-- The number of binary digits. -/
def bitLength (n : Nat) : Nat := if n = 0 then 0 else n.log2 + 1

def readLevel (bs : Bytes) (i : Nat) : Level where
  offset := Bytes.natAt bs (fixedSize + levelSize * i) 8
  length := Bytes.natAt bs (fixedSize + levelSize * i + 8) 8
  uncompressedLength := Bytes.natAt bs (fixedSize + levelSize * i + 16) 8

/-- The header as its fields say, whatever they say. -/
def decode (bs : Bytes) : Header :=
  let word (i : Nat) := Bytes.natAt bs (12 + 4 * i) 4
  { vkFormat := word 0
    typeSize := word 1
    width := word 2
    height := word 3
    depth := word 4
    layerCount := word 5
    faceCount := word 6
    levelCount := word 7
    supercompression := word 8
    dfd := ⟨word 9, word 10⟩
    kvd := ⟨word 11, word 12⟩
    sgd := ⟨Bytes.natAt bs 64 8, Bytes.natAt bs 72 8⟩
    levels := (List.range (max 1 (word 7))).map (readLevel bs) }

/-- The bytes that a header is read from. -/
def encode (h : Header) : Bytes :=
  let words := [h.vkFormat, h.typeSize, h.width, h.height, h.depth, h.layerCount, h.faceCount,
    h.levelCount, h.supercompression, h.dfd.offset, h.dfd.length, h.kvd.offset, h.kvd.length]
  identifier ++ words.flatMap (Bytes.ofNatLE 4) ++ Bytes.ofNatLE 8 h.sgd.offset ++
    Bytes.ofNatLE 8 h.sgd.length ++
    h.levels.flatMap fun l =>
      Bytes.ofNatLE 8 l.offset ++ Bytes.ofNatLE 8 l.length ++ Bytes.ofNatLE 8 l.uncompressedLength

def read (bs : Bytes) : Except Problem Header :=
  if bs.length < fixedSize then .error .noHeader
  else if bs.take 12 ≠ identifier then .error .noIdentifier
  else
    let word (i : Nat) := Bytes.natAt bs (12 + 4 * i) 4
    let width := word 2
    let height := word 3
    let levelCount := word 7
    let possible := bitLength (max (max width height) (word 4))
    if width = 0 then .error .zeroWidth
    else if word 6 ≠ 1 ∧ word 6 ≠ 6 then .error (.faceCount (word 6))
    else if 3 < word 8 then .error (.supercompression (word 8))
    else if possible < levelCount then .error (.levelCount levelCount possible width height)
    else if bs.length < fixedSize + levelSize * max 1 levelCount then .error .levelIndexPastEnd
    else
      let h := decode bs
      match h.levels.findIdx? fun l => bs.length < l.offset + l.length with
      | some level => .error (.levelPastEnd level)
      | none => .ok h

end Header

end Gltf.Ktx2
