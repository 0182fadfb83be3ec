/-!
What keeps the pixels of PNG and JPEG files from being decoded.
-/

namespace Gltf

inductive RasterProblem where
  | unidentified
  | tooManyPixels (count : Nat)
  /-- A chunk has fewer bytes than its fields take. -/
  | shortChunk (name : String)
  | shortAnimationChunk (name : String)
  /-- A part of the file claims more bytes than there are. -/
  | truncatedPart
  | noPixels
  /-- The file ends within the pixel data. -/
  | truncatedFile
  /-- The pixel data end before the last row. -/
  | missingRows
  | brokenPixels
  | unknownFilter
  | paletteSize
  /-- The pixels have colours of their own and cannot do with a palette. -/
  | paletteUse
  /-- Grey levels that a palette colours have a transparent one. -/
  | paletteLevel
  | paletteIndex
  | paletteTransparency
deriving DecidableEq, Repr

/-- The greatest number of pixels of an image that is decoded. -/
def pixelLimit : Nat := 178956970

def RasterProblem.message : RasterProblem → String
  | .unidentified => "cannot identify image file <_io.BytesIO object at 0x?>"
  | .tooManyPixels count =>
      s!"Image size ({count} pixels) exceeds limit of {pixelLimit} pixels, could be decompression bomb DOS attack."
  | .shortChunk name => s!"Truncated {name} chunk"
  | .shortAnimationChunk name => s!"APNG contains truncated {name} chunk"
  | .truncatedPart => "Truncated File Read"
  | .noPixels => "cannot load this image"
  | .truncatedFile => "image file is truncated"
  | .missingRows => "image file is truncated (0 bytes not processed)"
  | .brokenPixels => "broken data stream when reading image file"
  | .unknownFilter => "unrecognized data stream contents when reading image file"
  | .paletteSize => "invalid palette size"
  | .paletteUse => "unrecognized image mode"
  | .paletteLevel => "conversion from P to RGBA not supported in convert_transparent"
  | .paletteIndex => "palette index out of range"
  | .paletteTransparency => "Transparency for P mode should be bytes or int"

/-- Refuses images of too many pixels. -/
def checkExtent (width height : Nat) : Except RasterProblem Unit :=
  if pixelLimit < width * height then .error (.tooManyPixels (width * height)) else .ok ()

end Gltf
