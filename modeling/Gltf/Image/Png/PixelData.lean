import Gltf.Image.Png.Chunk
import Gltf.Image.RasterProblem

/-!
The data of consecutive chunks with pixels. They are read in pieces of limited size, and no further
than they are needed; so what is wrong with the chunks behind the last piece may go unnoticed.
-/

namespace Gltf.Png

/-- How much data there are once a piece is read, and what follows its chunk. -/
structure Piece where
  available : Nat
  rest : Bytes
deriving DecidableEq, Repr

structure PixelData where
  data : Bytes
  pieces : List Piece
  /-- Why there are no more pieces. -/
  shortage : RasterProblem
deriving DecidableEq, Repr

namespace PixelData

def pieceLimit : Nat := 65536

/-- The number of pieces that so many bytes make. -/
def pieceCount (size : Nat) : Nat := (size + pieceLimit - 1) / pieceLimit

/-- The pieces of a chunk that follows so many bytes of data. -/
def piecesOf (head : ChunkHead) (before : Nat) : List Piece :=
  let size := head.payload.length
  (List.range (pieceCount size)).map fun i =>
    ⟨before + min size ((i + 1) * pieceLimit), head.next⟩

/-- Whether a chunk claims more than the last piece of it could have held. -/
def claimsMore (head : ChunkHead) : Bool :=
  pieceCount head.payload.length * pieceLimit < head.length

/-- The data from a chunk on that follows so many bytes of data. The fuel is any bound on the number
of chunks. -/
def read : Nat → Nat → ChunkHead → PixelData
  | 0, _, _ => ⟨[], [], .truncatedFile⟩
  | fuel + 1, before, head =>
      if head.type ≠ pixelType ∧ head.type ≠ furtherPixelType then ⟨[], [], .missingRows⟩
      else
        let further : PixelData :=
          if claimsMore head then ⟨[], [], .missingRows⟩
          else
            match ChunkHead.read? head.next with
            | none => ⟨[], [], .truncatedFile⟩
            | some next => read fuel (before + head.payload.length) next
        { further with
          data := head.payload ++ further.data
          pieces := piecesOf head before ++ further.pieces }

end PixelData

end Gltf.Png
