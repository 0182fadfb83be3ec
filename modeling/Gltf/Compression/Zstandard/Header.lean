import Gltf.Bytes

/-!
Headers of Zstandard frames. They may state the size of the content, and they bound its window: how
much of it has to be kept to go on.
-/

namespace Gltf.Zstandard

inductive Problem where
  | noFrameHeader
  | unknownSize
  | incompleteFrame
  | corrupted
  | tooLarge
  | windowTooLarge
  /-- The frame states a size that no buffer has. -/
  | unsupportedSize
  | contentSize (found expected : Nat)
  /-- The limit is no size of a buffer. -/
  | limitTooLarge
  | bufferTooLarge
  | outOfMemory
deriving DecidableEq, Repr

def Problem.message : Problem → String
  | .noFrameHeader => "error determining content size from frame header"
  | .unknownSize => "could not determine content size in frame header"
  | .incompleteFrame => "decompression error: did not decompress full frame"
  | .corrupted => "decompression error: Data corruption detected"
  | .tooLarge => "decompression error: Destination buffer is too small"
  | .windowTooLarge => "decompression error: Frame requires too much memory for decoding"
  | .unsupportedSize => "frame is too large to decompress on this platform"
  | .contentSize found expected =>
      s!"decompression error: decompressed {found} bytes; expected {expected}"
  | .limitTooLarge => "Python int too large to convert to C ssize_t"
  | .bufferTooLarge => "byte string is too large"
  | .outOfMemory => ""

/-- Whether it is the buffer for the content that cannot be had, as opposed to a fault of the frame. -/
def Problem.isOfBuffer : Problem → Bool
  | .limitTooLarge | .bufferTooLarge | .outOfMemory => true
  | _ => false

def magic : Nat := 0xFD2FB528

/-- Sixteen magic numbers announce frames without content. -/
def isSkippable (n : Nat) : Bool := n / 16 == 0x184D2A5

structure FrameHeader where
  /-- The bytes that the header takes up. -/
  size : Nat
  contentSize : Option Nat
  windowSize : Nat
deriving DecidableEq, Repr

/-- A stored content size that says that the size is unknown. -/
def unknownContentSize : Nat := 0xffffffffffffffff

def readHeader? (bs : Bytes) : Option FrameHeader :=
  let descriptor := Bytes.natAt bs 4 1
  let singleSegment := descriptor.testBit 5
  let dictionarySize := [0, 1, 2, 4][descriptor % 4]?.getD 0
  let windowBytes := if singleSegment then 0 else 1
  let sizeBytes :=
    match descriptor / 64 with
    | 0 => if singleSegment then 1 else 0
    | 1 => 2
    | 2 => 4
    | _ => 8
  let size := 5 + windowBytes + dictionarySize + sizeBytes
  if bs.length < 5 ∨ Bytes.natAt bs 0 4 ≠ magic ∨ bs.length < size ∨ descriptor.testBit 3 then none
  else
    let stored := Bytes.natAt bs (5 + windowBytes + dictionarySize) sizeBytes
    let content := if sizeBytes = 2 then stored + 256 else stored
    let window := Bytes.natAt bs 5 1
    let windowLog := 10 + window / 8
    if !singleSegment && 31 < windowLog then none
    else
      some {
        size
        contentSize := if sizeBytes = 0 ∨ content = unknownContentSize then none else some content
        windowSize :=
          if singleSegment then content
          else Nat.pow 2 windowLog + Nat.pow 2 windowLog / 8 * (window % 8) }

namespace FrameHeader

/-- The greatest size of a block. -/
def blockSize (header : FrameHeader) : Nat := min header.windowSize (128 * 1024)

/-- The buffer for the content that is kept: room for the whole content, or for the window, two blocks
and some spare bytes. -/
def bufferSize (header : FrameHeader) : Nat :=
  let ring := max header.windowSize 1024 + 2 * header.blockSize + 64
  match header.contentSize with
  | some size => min size ring
  | none => ring

/-- Whether the buffer does not hold the whole content. -/
def reusesBuffer (header : FrameHeader) : Bool := !header.contentSize.any (· ≤ header.bufferSize)

end FrameHeader

end Gltf.Zstandard
