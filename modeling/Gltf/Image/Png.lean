import Gltf.Image.Png.Colours
import Gltf.Image.Png.Rows

/-!
PNG images with eight bits per sample, not interlaced, as red, green, blue and alpha. The chunks
before the pixels are checked before any pixel is decoded.
-/

namespace Gltf.Png

/-- Decodes pixels of known colours from the first chunk with pixels on. Faults in the pixel data come
behind those of the chunks that follow, and what is wrong with the colours comes last, but indices
are not read without a usable palette. -/
def Info.decodePixels (info : Info) (colour : Colour) (head : ChunkHead) :
    Except RasterProblem ImageData := do
  let raster : Raster := ⟨colour.samples, info.width * colour.samples, info.height⟩
  if colour = .indexed then
    let _ ← paletteColours (info.palette.getD [])
  let rows ← raster.read head
  let trailer ← readTrailer rows.rest.length info rows.rest
  let lines ← rows.lines
  let pixels ←
    { info with transparency := trailer.transparency }.toRgba colour (raster.samplesOf lines)
  .ok { width := info.width, height := info.height, pixels }

def decode (bs : Bytes) : Except RasterProblem ImageData :=
  match readInfo bs.length {} (bs.drop 8) with
  | .error problem => .error problem
  | .ok (info, head) =>
      match info.colour with
      | none => .error .unidentified
      | some colour =>
          if info.width = 0 ∨ info.height = 0 ∨ info.isInterlaced then .error .unidentified
          else do
            checkExtent info.width info.height
            if head.type = endType then .error .noPixels else info.decodePixels colour head

end Gltf.Png
