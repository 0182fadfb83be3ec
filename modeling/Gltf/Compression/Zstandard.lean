import Gltf.Compression.Zstandard.Blocks

/-!
Zstandard frames whose blocks are stored or repeat one byte. The frame header may state the size of
the content; otherwise the caller's limit bounds it.
-/

namespace Gltf.Zstandard

/-- One more than the greatest size of a buffer. -/
def sizeBound : Nat := 0x8000000000000000

/-- What a buffer holds besides its bytes. -/
def bufferOverhead : Nat := 33

/-- One more than the greatest address. -/
def memorySize : Nat := 0x800000000000

/-- Whether there can be a buffer for so many bytes. -/
def checkBuffer (size : Nat) : Except Problem Unit :=
  if sizeBound ≤ size + bufferOverhead then .error .bufferTooLarge
  else if memorySize ≤ size then .error .outOfMemory
  else .ok ()

/-- A frame without content that states the size of what is skipped. -/
def skip (size following : Nat) : Except Problem Bytes :=
  if size = 0 then .ok []
  else if following < size then .error .incompleteFrame
  else .error (.contentSize 0 size)

/-- The content of a frame with some header. A frame that states its size is decoded at once when it
is complete. -/
def decompressFrame (header : FrameHeader) (limit : Nat) (bs : Bytes) : Except Problem Bytes :=
  match header.contentSize with
  | some 0 => .ok []
  | none => do
      if limit = 0 then .error .unknownSize
      else
        checkBuffer limit
        streamed header limit bs
  | some size => do
      if sizeBound ≤ size then .error .unsupportedSize
      else
        checkBuffer size
        match readBlocks? bs.length bs with
        | some blocks => atOnce size blocks
        | none => streamed header size bs

/-- The content of the frame that the bytes begin with. -/
def decompress (bs : Bytes) (limit : Nat) : Except Problem Bytes :=
  if sizeBound ≤ limit then .error .limitTooLarge
  else if 8 ≤ bs.length ∧ isSkippable (Bytes.natAt bs 0 4) then
    skip (Bytes.natAt bs 4 4) (bs.length - 8)
  else
    match readHeader? bs with
    | none => .error .noFrameHeader
    | some header => decompressFrame header limit (bs.drop header.size)

end Gltf.Zstandard
