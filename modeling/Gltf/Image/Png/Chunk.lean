import Gltf.Bytes

/-!
Chunks of PNG files: a length, a type of four characters, a payload of that length, and a checksum
of type and payload.
-/

namespace Gltf.Png

def signature : Bytes := [0x89, 0x50, 0x4e, 0x47, 0x0d, 0x0a, 0x1a, 0x0a]

/-- The remainder that one byte of input leaves. -/
def crcOfByte (n : UInt32) : UInt32 :=
  (List.range 8).foldl (fun c _ => (if c % 2 = 1 then (0xedb88320 : UInt32) else 0) ^^^ (c >>> 1)) n

def crc32 (bs : Bytes) : UInt32 :=
  let remainder : UInt32 := bs.foldl
    (fun c b => crcOfByte ((c ^^^ b.toUInt32) % 256) ^^^ (c >>> 8)) 0xffffffff
  remainder ^^^ 0xffffffff

def headerType : Bytes := [0x49, 0x48, 0x44, 0x52]

def paletteType : Bytes := [0x50, 0x4c, 0x54, 0x45]

def transparencyType : Bytes := [0x74, 0x52, 0x4e, 0x53]

def pixelType : Bytes := [0x49, 0x44, 0x41, 0x54]

/-- Another name for chunks with pixels, once there have been some. -/
def furtherPixelType : Bytes := [0x44, 0x44, 0x41, 0x54]

def endType : Bytes := [0x49, 0x45, 0x4e, 0x44]

def isTypeByte (b : UInt8) : Bool :=
  (0x30 ≤ b && b ≤ 0x39) || (0x41 ≤ b && b ≤ 0x5a) || b == 0x5f || (0x61 ≤ b && b ≤ 0x7a)

/-- The beginning of a chunk, and what follows it. -/
structure ChunkHead where
  type : Bytes
  length : Nat
  rest : Bytes
deriving DecidableEq, Repr

namespace ChunkHead

def read? (bs : Bytes) : Option ChunkHead :=
  let type := (bs.drop 4).take 4
  if type.length < 4 ∨ !type.all isTypeByte then none
  else some ⟨type, Bytes.natAtBE bs 0 4, bs.drop 8⟩

def name (head : ChunkHead) : String := String.ofList (head.type.map fun b => Char.ofNat b.toNat)

/-- The payload, as far as there is one. -/
def payload (head : ChunkHead) : Bytes := head.rest.take head.length

def isTruncated (head : ChunkHead) : Bool := head.payload.length < head.length

/-- Whether the checksum is there and right. -/
def isSound (head : ChunkHead) : Bool :=
  let checksum := (head.rest.drop head.length).take 4
  checksum.length == 4 &&
    (crc32 (head.type ++ head.payload)).toNat == Bytes.toNatBE checksum

/-- What follows the chunk. -/
def next (head : ChunkHead) : Bytes := head.rest.drop (head.length + 4)

end ChunkHead

end Gltf.Png
