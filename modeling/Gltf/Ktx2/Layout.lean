import Gltf.Image.Pixels
import Gltf.Ktx2.Channels

/-!
Where the levels of a KTX2 file lie in the decoded pixel buffer: one behind the other, largest
first, each with the size that its extent has in the target format.
-/

namespace Gltf.Ktx2

/-- The target format for each codec and its channels. -/
structure Targets where
  etc1sR : PixelFormat := .none
  etc1sRg : PixelFormat := .none
  etc1sRgb : PixelFormat := .none
  etc1sRgba : PixelFormat := .none
  uastcR : PixelFormat := .none
  uastcRg : PixelFormat := .none
  uastcRgb : PixelFormat := .none
  uastcRgba : PixelFormat := .none
deriving DecidableEq, Repr

def Targets.target (t : Targets) : Codec → Channels → PixelFormat
  | .etc1s, .r => t.etc1sR
  | .etc1s, .rg => t.etc1sRg
  | .etc1s, .rgb => t.etc1sRgb
  | .etc1s, .rgba => t.etc1sRgba
  | .uastc, .r => t.uastcR
  | .uastc, .rg => t.uastcRg
  | .uastc, .rgb => t.uastcRgb
  | .uastc, .rgba => t.uastcRgba

/-- The bytes of a pixel in the formats of plain 8-bit channels, by Vulkan's number of the
format. -/
def rawPixelSize? (vkFormat : Nat) : Option Nat :=
  match vkFormat with
  | 9 => some 1
  | 15 => some 1
  | 16 => some 2
  | 22 => some 2
  | 23 => some 3
  | 29 => some 3
  | 37 => some 4
  | 43 => some 4
  | _ => none

/-- What the pixels become: a format, its block geometry, and the codec they come from if they need
a transcoder. -/
structure Goal where
  format : PixelFormat
  block : Block
  codec : Option Codec
deriving DecidableEq, Repr

def goal? (bs : Bytes) (targets : Targets) (h : Header) : Option Goal :=
  if h.isBasis then
    let (codec, channels) := basisChannels bs h
    let format := targets.target codec channels
    some ⟨format, format.block, some codec⟩
  else (rawPixelSize? h.vkFormat).map fun size => ⟨.none, ⟨1, 1, size, size⟩, none⟩

structure Layout where
  header : Header
  format : PixelFormat
  channels : Nat
  /-- Every stored level, the base level first. -/
  levels : List MipPosition
  codec : Option Codec
deriving DecidableEq, Repr

namespace Layout

/-- The levels that are mips; none when those are left to be made at runtime. -/
def mips (l : Layout) : List MipPosition := if 0 < l.header.levelCount then l.levels else []

def totalSize (l : Layout) : Nat := (l.levels.map (·.size)).foldr (· + ·) 0

end Layout

/-- The number of blocks that cover an extent. -/
def blocksAcross (extent block : Nat) : Nat := (extent + block - 1) / block

def sliceSize (b : Block) (width height : Nat) : Nat :=
  blocksAcross width b.width * blocksAcross height b.height * b.bytes

/-- The extent of a level along an axis: halved for each level, and at least one. -/
def extentAt (extent level : Nat) : Nat := max 1 (extent / Nat.pow 2 level)

def sizeAt (h : Header) (b : Block) (level : Nat) : Nat :=
  sliceSize b (extentAt h.width level) (extentAt h.height level) * extentAt h.depth level *
    max 1 h.layerCount * h.faceCount

/-- Sizes laid one behind the other from an offset on. -/
def packed (offset : Nat) : List Nat → List MipPosition
  | [] => []
  | size :: sizes => ⟨offset, size⟩ :: packed (offset + size) sizes

/-- The first stored level whose length is not the size of its place. -/
def misfit? (level : Nat) : List Level → List MipPosition → Option Problem
  | l :: ls, p :: ps =>
      if l.length = p.size then misfit? (level + 1) ls ps
      else some (.levelLength level l.length p.size)
  | _, _ => none

/-- The levels of a file with this header, laid out for a goal. -/
def Goal.layout (goal : Goal) (h : Header) : Except Problem Layout :=
  let levels := packed 0 ((List.range h.storedLevelCount).map (sizeAt h goal.block))
  let misfit :=
    if !h.isBasis && h.supercompression == 0 then misfit? 0 h.levels levels else none
  match misfit with
  | some problem => .error problem
  | none => .ok ⟨h, goal.format, goal.block.channels, levels, goal.codec⟩

def layout (bs : Bytes) (targets : Targets) : Except Problem Layout :=
  match Header.read bs with
  | .error problem => .error problem
  | .ok h =>
      match goal? bs targets h with
      | none => .error (.unsupportedFormat h.vkFormat)
      | some goal => goal.layout h

end Gltf.Ktx2
