import Gltf.Compression.Zstandard.Header

/-!
Blocks of Zstandard frames. A frame that states its size is decoded at once when all blocks are
there. Otherwise it is decoded piece by piece through a buffer, which bounds the blocks.
-/

namespace Gltf.Zstandard

inductive BlockKind where
  | stored
  /-- One byte, repeated. -/
  | run
  /-- Coded blocks are none that can be decoded. -/
  | coded
deriving DecidableEq, Repr

/-- The beginning of a block, and what follows it. -/
structure BlockHead where
  isLast : Bool
  kind : BlockKind
  /-- The size of the content, unless it is coded. -/
  size : Nat
  rest : Bytes
deriving DecidableEq, Repr

namespace BlockHead

def storedSize (head : BlockHead) : Nat :=
  match head.kind with
  | .run => 1
  | _ => head.size

def stored (head : BlockHead) : Bytes := head.rest.take head.storedSize

def isTruncated (head : BlockHead) : Bool := head.stored.length < head.storedSize

/-- What follows the block. -/
def next (head : BlockHead) : Bytes := head.rest.drop head.storedSize

/-- The content, as far as the block is there. -/
def content (head : BlockHead) : Bytes :=
  match head.kind, head.stored with
  | .run, byte :: _ => List.replicate head.size byte
  | _, stored => stored

def read (bs : Bytes) : Except Problem BlockHead :=
  if (bs.take 3).length < 3 then .error .incompleteFrame
  else
    let header := Bytes.natAt bs 0 3
    let head (kind : BlockKind) : Except Problem BlockHead :=
      .ok ⟨header % 2 = 1, kind, header / 8, bs.drop 3⟩
    match header / 2 % 4 with
    | 0 => head .stored
    | 1 => head .run
    | 2 => head .coded
    | _ => .error .corrupted

end BlockHead

/-- The blocks up to the last one, if all are there. The fuel is any bound on their number. -/
def readBlocks? : Nat → Bytes → Option (List BlockHead)
  | 0, _ => none
  | fuel + 1, bs =>
      match BlockHead.read bs with
      | .error _ => none
      | .ok head =>
          if head.isTruncated then none
          else if head.isLast then some [head]
          else (readBlocks? fuel head.next).map (head :: ·)

/-- The content of blocks that is to have some size. -/
def atOnce (size : Nat) (blocks : List BlockHead) : Except Problem Bytes :=
  let content := blocks.flatMap BlockHead.content
  if blocks.any (·.kind == .coded) then .error .corrupted
  else if size < content.length then .error .tooLarge
  else if content.length < size then .error .corrupted
  else .ok content

/-- How far decoding piece by piece has come: so much content, and where the buffer goes on. -/
structure Progress where
  done : Nat := 0
  position : Nat := 0
deriving DecidableEq, Repr

namespace FrameHeader

/-- What is wrong with a block that is taken to the buffer. -/
def checkBlock (header : FrameHeader) (progress : Progress) (head : BlockHead) (size : Nat) :
    Except Problem Unit :=
  if head.kind = .coded then .error .corrupted
  else if header.bufferSize < progress.position + size then .error .tooLarge
  else if header.blockSize < size then .error .corrupted
  else if head.isLast ∧ ¬ head.isTruncated ∧ header.contentSize.any (· != progress.done + size) then
    .error .corrupted
  else .ok ()

/-- Goes on behind so many bytes of content; the buffer is begun again where a block may not fit. -/
def advance (header : FrameHeader) (progress : Progress) (size : Nat) : Progress :=
  let position := progress.position + size
  ⟨progress.done + size,
    if header.reusesBuffer ∧ header.bufferSize < position + header.blockSize then 0 else position⟩

/-- Decodes blocks through the buffer, as far as there is room for the content. The fuel is any bound
on their number. -/
def readStream (header : FrameHeader) (limit : Nat) :
    Nat → Progress → Bytes → Except Problem Bytes
  | 0, _, _ => .error .incompleteFrame
  | fuel + 1, progress, bs => do
      let head ← BlockHead.read bs
      if header.blockSize < head.storedSize then .error .corrupted
      else if head.storedSize = 0 then
        if head.isLast then .ok [] else header.readStream limit fuel progress head.next
      else if head.stored = [] ∨ head.isTruncated ∧ head.kind = .coded then .error .incompleteFrame
      else
        let content := head.content
        header.checkBlock progress head content.length
        if head.isTruncated ∨ limit < progress.done + content.length then .error .incompleteFrame
        else if head.isLast then .ok content
        else
          let rest ←
            header.readStream limit fuel (header.advance progress content.length) head.next
          .ok (content ++ rest)

end FrameHeader

def maxWindowSize : Nat := 0x8000001

/-- Decodes piece by piece, which bounds the window. -/
def streamed (header : FrameHeader) (limit : Nat) (bs : Bytes) : Except Problem Bytes :=
  if maxWindowSize < header.windowSize then .error .windowTooLarge
  else header.readStream limit bs.length {} bs

end Gltf.Zstandard
