import Gltf.Image.Png.Ancillary

/-!
What the chunks of a PNG file say about its pixels. Of several chunks of one type the last counts,
and palette and transparency are read for the colours that are declared before them.
-/

namespace Gltf.Png

/-- What the samples of a pixel mean. -/
inductive Colour where
  | grey
  | rgb
  | indexed
  | greyAlpha
  | rgba
deriving DecidableEq, Repr

namespace Colour

def ofNat? : Nat → Option Colour
  | 0 => some .grey
  | 2 => some .rgb
  | 3 => some .indexed
  | 4 => some .greyAlpha
  | 6 => some .rgba
  | _ => none

def samples : Colour → Nat
  | .grey => 1
  | .rgb => 3
  | .indexed => 1
  | .greyAlpha => 2
  | .rgba => 4

end Colour

/-- What is not opaque: palette entries, one of them or one grey level, or one colour. -/
inductive Transparency where
  | alphas (values : Bytes)
  | level (n : Nat)
  | colour (red green blue : Nat)
deriving DecidableEq, Repr

structure Info where
  width : Nat := 0
  height : Nat := 0
  colour : Option Colour := none
  isInterlaced : Bool := false
  palette : Option Bytes := none
  transparency : Option Transparency := none
deriving DecidableEq, Repr

namespace Info

/-- Takes over the extent, and the colours if they are known ones. -/
def addHeader (info : Info) (payload : Bytes) : Except RasterProblem Info :=
  if payload.length < 13 then .error (.shortChunk "IHDR")
  else if Bytes.natAt payload 11 1 ≠ 0 then .error .unidentified
  else
    let declared :=
      if Bytes.natAt payload 8 1 = 8 then Colour.ofNat? (Bytes.natAt payload 9 1) else none
    .ok { info with
      width := Bytes.natAtBE payload 0 4
      height := Bytes.natAtBE payload 4 4
      colour := declared <|> info.colour
      isInterlaced := info.isInterlaced || Bytes.natAt payload 12 1 != 0 }

/-- The transparency of palette entries. A single transparent one among opaque ones is told by its
index; a line feed may follow. -/
def entryTransparency (payload : Bytes) : Transparency :=
  let before := payload.takeWhile (· == 255)
  match payload.dropWhile (· == 255) with
  | 0 :: after =>
      let ending := after.dropWhile (· == 255)
      if ending = [] ∨ ending = [0x0a] then .level before.length else .alphas payload
  | _ => .alphas payload

/-- A sixteen-bit sample, most significant byte first. -/
def wideSample (payload : Bytes) (i : Nat) : Nat := Bytes.natAtBE payload (2 * i) 2

def addTransparency (info : Info) (payload : Bytes) : Except RasterProblem Info :=
  let sample := wideSample payload
  match info.colour with
  | some .indexed => .ok { info with transparency := some (entryTransparency payload) }
  | some .grey =>
      if payload.length < 2 then .error (.shortChunk "tRNS")
      else .ok { info with transparency := some (.level (sample 0)) }
  | some .rgb =>
      if payload.length < 6 then .error (.shortChunk "tRNS")
      else .ok { info with transparency := some (.colour (sample 0) (sample 1) (sample 2)) }
  | _ => .ok info

def addPalette (info : Info) (payload : Bytes) : Info :=
  if info.colour = some .indexed then { info with palette := some payload } else info

/-- Takes over what a chunk says. -/
def add (info : Info) (head : ChunkHead) : Except RasterProblem Info :=
  if head.type = headerType then info.addHeader head.payload
  else if head.type = paletteType then .ok (info.addPalette head.payload)
  else if head.type = transparencyType then info.addTransparency head.payload
  else
    match ancillaryProblem? head with
    | some problem => .error problem
    | none => .ok info

end Info

/-- Reads the chunks before the pixels or the end of the image. Pixels of unknown colours are passed
over. The fuel is any bound on the number of chunks. -/
def readInfo : Nat → Info → Bytes → Except RasterProblem (Info × ChunkHead)
  | 0, _, _ => .error .unidentified
  | fuel + 1, info, bs =>
      match ChunkHead.read? bs with
      | none => .error .unidentified
      | some head =>
          if head.type = endType ∨ head.type = pixelType ∧ info.colour.isSome then .ok (info, head)
          else if head.isTruncated then .error .truncatedPart
          else do
            let info ← info.add head
            if head.isSound then readInfo fuel info head.next else .error .unidentified

/-- Reads the chunks behind the pixels, whose checksums do not count. The fuel is any bound on the
number of chunks. -/
def readTrailer : Nat → Info → Bytes → Except RasterProblem Info
  | 0, info, _ => .ok info
  | fuel + 1, info, bs =>
      match ChunkHead.read? bs with
      | none => .ok info
      | some head =>
          if head.type = endType then .ok info
          else if head.isTruncated then .error .truncatedPart
          else do
            let info ← info.add head
            readTrailer fuel info head.next

end Gltf.Png
