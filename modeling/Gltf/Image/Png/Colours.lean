import Gltf.Image.Png.Info
import Gltf.Image.Pixels

/-!
Samples of PNG images as red, green, blue and alpha. A palette also colours grey levels, if one was
given; pixels with colours of their own cannot do with one.
-/

namespace Gltf.Png

/-- The greatest number of colours of a palette. -/
def paletteLimit : Nat := 256

/-- The samples of each pixel. -/
def pixelsOf (colour : Colour) (samples : Bytes) : List Bytes :=
  let (pixels, _) := samples.foldl
    (fun (pixels, part) sample =>
      if part.length + 1 < colour.samples then (pixels, sample :: part)
      else ((sample :: part).reverse :: pixels, []))
    (([], []) : List Bytes × Bytes)
  pixels.reverse

/-- The first sample of a pixel, a grey level or an index. -/
def first (pixel : Bytes) : UInt8 := pixel.head?.getD 0

/-- The colour of a palette entry; entries that it lacks are black. -/
def paletteColour (palette : Bytes) (i : Nat) : Bytes :=
  if 3 * i + 3 ≤ palette.length then (palette.drop (3 * i)).take 3 else [0, 0, 0]

/-- The colours of all entries of a palette, unless it has too many. -/
def paletteColours (palette : Bytes) : Except RasterProblem (Array Bytes) :=
  if paletteLimit < palette.length / 3 then .error .paletteSize
  else .ok ((Array.range paletteLimit).map (paletteColour palette))

/-- The alpha values of the first entries of a palette; the others are opaque. -/
def entryAlphas : Transparency → Except RasterProblem Bytes
  | .alphas values =>
      if paletteLimit < values.length then .error .paletteIndex else .ok values
  | .level n =>
      if paletteLimit ≤ n then .error .paletteIndex else .ok (List.replicate n 255 ++ [0])
  | .colour _ _ _ => .error .paletteTransparency

/-- The samples of transparent grey pixels, the low byte of a level. -/
def clearGrey? : Transparency → Option Bytes
  | .alphas _ => none
  | .level n => some [UInt8.ofNat n]
  | .colour red _ _ => some [UInt8.ofNat red]

/-- The samples of transparent coloured pixels, each the low byte of a level. -/
def clearRgb? : Transparency → Option Bytes
  | .alphas _ => none
  | .level n => some [UInt8.ofNat n, 0, 0]
  | .colour red green blue => some [UInt8.ofNat red, UInt8.ofNat green, UInt8.ofNat blue]

/-- Opaque unless the samples are those of transparent pixels. -/
def alphaOf (clear : Option Bytes) (samples : Bytes) : UInt8 :=
  if clear = some samples then 0 else 255

namespace Info

/-- A pixel that is not coloured by a palette. -/
def plainPixel (info : Info) (colour : Colour) (pixel : Bytes) : Bytes :=
  match colour with
  | .rgb => pixel ++ [alphaOf (info.transparency.bind clearRgb?) pixel]
  | .rgba => pixel
  | .greyAlpha => List.replicate 3 (first pixel) ++ pixel.drop 1
  | .grey | .indexed =>
      List.replicate 3 (first pixel) ++ [alphaOf (info.transparency.bind clearGrey?) pixel]

/-- The alpha values of the first entries of the palette that colours the pixels. -/
def paletteAlphas (info : Info) (colour : Colour) : Except RasterProblem Bytes :=
  match colour, info.transparency with
  | .indexed, some transparency => entryAlphas transparency
  | .grey, some _ => .error .paletteLevel
  | _, _ => .ok []

/-- Pixels as red, green, blue and alpha. -/
def toRgba (info : Info) (colour : Colour) (samples : Bytes) : Except RasterProblem Bytes :=
  let pixels := pixelsOf colour samples
  if colour ≠ .indexed ∧ info.palette = none then .ok (pixels.flatMap (info.plainPixel colour))
  else if colour = .rgb ∨ colour = .rgba then .error .paletteUse
  else do
    let colours ← paletteColours (info.palette.getD [])
    let alphas ← info.paletteAlphas colour
    let alpha (pixel : Bytes) : UInt8 :=
      if colour = .greyAlpha then (pixel[1]?).getD 255
      else (alphas[(first pixel).toNat]?).getD 255
    .ok (pixels.flatMap fun pixel =>
      (colours[(first pixel).toNat]?).getD [] ++ [alpha pixel])

end Info

end Gltf.Png
