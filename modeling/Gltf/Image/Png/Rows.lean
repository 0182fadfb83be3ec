import Gltf.Compression.Zlib
import Gltf.Image.Png.PixelData

/-!
Rows of PNG images. Each begins with a filter, which says how its samples follow from those around
them. Rows are decoded piece of data by piece of data, until all of them are there; what shows later
in the data than that goes unnoticed.
-/

namespace Gltf.Png

inductive Filter where
  | plain
  | left
  | up
  | average
  | paeth
deriving DecidableEq, Repr

namespace Filter

def ofByte? (b : UInt8) : Option Filter :=
  match b.toNat with
  | 0 => some .plain
  | 1 => some .left
  | 2 => some .up
  | 3 => some .average
  | 4 => some .paeth
  | _ => none

/-- The one of three neighbours that is closest to where a plane through them leads. -/
def closest (left up corner : Nat) : Nat :=
  let distance (n : Nat) : Nat := ((left + up : Int) - corner - n).natAbs
  if distance left ≤ distance up ∧ distance left ≤ distance corner then left
  else if distance up ≤ distance corner then up
  else corner

/-- The value that is expected from the neighbours of a sample. -/
def predict (filter : Filter) (left up corner : UInt8) : UInt8 :=
  match filter with
  | .plain => 0
  | .left => left
  | .up => up
  | .average => UInt8.ofNat ((left.toNat + up.toNat) / 2)
  | .paeth => UInt8.ofNat (closest left.toNat up.toNat corner.toNat)

end Filter

/-- A row as it is stored: its filter, and how its samples differ from what that expects. -/
structure Line where
  filter : Filter
  differences : Bytes
deriving DecidableEq, Repr

/-- The extent of an image in rows of bytes. -/
structure Raster where
  /-- The bytes of a pixel. -/
  samples : Nat
  rowSize : Nat
  rows : Nat
deriving DecidableEq, Repr

namespace Raster

/-- The bytes of a row with its filter. -/
def lineSize (r : Raster) : Nat := r.rowSize + 1

/-- The samples of a row, given those so far in reverse, the row above and that row moved right by
one pixel. -/
def unfilter (r : Raster) (filter : Filter) (done : Bytes) : Bytes → Bytes → Bytes → Bytes
  | difference :: row, up :: above, corner :: aboveLeft =>
      let left := ((done.drop (r.samples - 1)).head?).getD 0
      r.unfilter filter ((difference + filter.predict left up corner) :: done) row above aboveLeft
  | _, _, _ => done.reverse

/-- The samples of rows below another. -/
def unfilterLines (r : Raster) (above : Bytes) : List Line → Bytes
  | [] => []
  | line :: lines =>
      let row :=
        r.unfilter line.filter [] line.differences above (List.replicate r.samples 0 ++ above)
      row ++ r.unfilterLines row lines

/-- The samples of an image whose first rows are given; the others are empty. -/
def samplesOf (r : Raster) (lines : List Line) : Bytes :=
  r.unfilterLines (List.replicate r.rowSize 0) lines ++
    List.replicate ((r.rows - lines.length) * r.rowSize) 0

end Raster

/-- What becomes of pixel data that are decoded as a whole. -/
structure Decoded where
  out : Deflate.Output
  ending : Zlib.Ending
deriving DecidableEq, Repr

namespace Decoded

/-- Whether the data so far have a fault, as far as it shows with room for so many bytes. A copy from
too far back shows only where there is room for it. -/
def isBroken (d : Decoded) (available room : Nat) : Bool :=
  match d.ending with
  | .failed (.deflate .distanceTooFar) touched => touched ≤ available && d.out.size < room
  | .failed _ touched => touched ≤ available && d.out.size ≤ room
  | _ => false

/-- Whether the data so far give so many bytes. -/
def reaches (d : Decoded) (available size : Nat) : Bool :=
  match d.out[size - 1]? with
  | some last => last.known ≤ available
  | none => false

/-- Whether the data so far give so many bytes and nothing more. -/
def isComplete (d : Decoded) (available size : Nat) : Bool :=
  match d.ending with
  | .complete touched => touched ≤ available && d.out.size == size
  | _ => false

/-- Whether decoding so many bytes leaves some of the data so far untouched. -/
def leavesData (d : Decoded) (available size : Nat) : Bool :=
  match d.out[size]?, d.ending with
  | some next, _ => next.due < available
  | none, .failed _ touched => touched < available
  | none, _ => false

/-- The row that begins at a byte. -/
def line? (d : Decoded) (r : Raster) (start : Nat) : Option Line :=
  match Deflate.Output.bytes (d.out.extract start (start + r.lineSize)) with
  | filter :: differences => (Filter.ofByte? filter).map (⟨·, differences⟩)
  | [] => none

end Decoded

/-- How far the rows are decoded. -/
inductive Progress where
  | done (lines : List Line)
  /-- More data are needed for the last so many rows. -/
  | more (left : Nat) (lines : List Line)
  | failed (problem : RasterProblem)
deriving DecidableEq, Repr

namespace Raster

/-- Decodes rows from the data so far, below some that are given in reverse. The stream may end
before the last row. After a row another is begun only with data to spare. -/
def advance (r : Raster) (d : Decoded) (available : Nat) : Nat → List Line → Progress
  | 0, lines => .done lines.reverse
  | left + 1, lines =>
      let start := (r.rows - (left + 1)) * r.lineSize
      let size := start + r.lineSize
      if d.isBroken available size then .failed .brokenPixels
      else if !d.reaches available size then .more (left + 1) lines
      else
        match d.line? r start with
        | none => .failed .unknownFilter
        | some line =>
            let lines := line :: lines
            if left = 0 ∨ d.isComplete available size then .done lines.reverse
            else if d.leavesData available size then r.advance d available left lines
            else .more left lines

/-- The rows of an image or a fault in its data, and what follows the chunk that ends them. -/
structure Rows where
  lines : Except RasterProblem (List Line)
  rest : Bytes

/-- Decodes the last so many rows, below some that are given in reverse, from piece after piece. -/
def readPieces (r : Raster) (d : Decoded) (shortage : RasterProblem) (left : Nat) (lines : List Line) :
    List Piece → Except RasterProblem Rows
  | [] => .error shortage
  | piece :: pieces =>
      match r.advance d piece.available left lines with
      | .done lines => .ok ⟨.ok lines, piece.rest⟩
      | .failed problem => .ok ⟨.error problem, piece.rest⟩
      | .more left lines => r.readPieces d shortage left lines pieces

/-- Decodes the rows of consecutive chunks from one on. -/
def read (r : Raster) (head : ChunkHead) : Except RasterProblem Rows :=
  let pixels := PixelData.read (head.rest.length + 1) 0 head
  let (out, ending) := Zlib.inflate (some (r.rows * r.lineSize)) pixels.data
  r.readPieces ⟨out, ending⟩ pixels.shortage r.rows [] pixels.pieces

end Raster

end Gltf.Png
