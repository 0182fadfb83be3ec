import Gltf.Bytes

/-!
Decoded images: pixel formats, the place of each mip level in the pixel buffer, and the buffer
itself.
-/

namespace Gltf

/-- The formats that pixels can be delivered in; `none` is uncompressed. -/
inductive PixelFormat where
  | none
  | etc1Rgb
  | etc2Rgba
  | bc1Rgb
  | bc3Rgba
  | bc4R
  | bc5Rg
  | bc7Rgba
  | pvrtc1Rgb
  | pvrtc1Rgba
  | astc4x4Rgba
  | etc2EacR11
  | etc2EacRg11
deriving DecidableEq, Repr

/-- A compression block: its extent in pixels, its bytes, and the channels of a pixel. -/
structure Block where
  width : Nat
  height : Nat
  bytes : Nat
  channels : Nat
deriving DecidableEq, Repr

namespace PixelFormat

def all : List PixelFormat :=
  [.none, .etc1Rgb, .etc2Rgba, .bc1Rgb, .bc3Rgba, .bc4R, .bc5Rg, .bc7Rgba, .pvrtc1Rgb, .pvrtc1Rgba,
    .astc4x4Rgba, .etc2EacR11, .etc2EacRg11]

def name : PixelFormat → String
  | .none => "NONE"
  | .etc1Rgb => "ETC1_RGB"
  | .etc2Rgba => "ETC2_RGBA"
  | .bc1Rgb => "BC1_RGB"
  | .bc3Rgba => "BC3_RGBA"
  | .bc4R => "BC4_R"
  | .bc5Rg => "BC5_RG"
  | .bc7Rgba => "BC7_RGBA"
  | .pvrtc1Rgb => "PVRTC1_4_RGB"
  | .pvrtc1Rgba => "PVRTC1_4_RGBA"
  | .astc4x4Rgba => "ASTC_4x4_RGBA"
  | .etc2EacR11 => "ETC2_EAC_R11"
  | .etc2EacRg11 => "ETC2_EAC_RG11"

def ofName? (name : String) : Option PixelFormat := all.find? (·.name == name)

def block : PixelFormat → Block
  | .none => ⟨1, 1, 4, 4⟩
  | .etc1Rgb => ⟨4, 4, 8, 3⟩
  | .etc2Rgba => ⟨4, 4, 16, 4⟩
  | .bc1Rgb => ⟨4, 4, 8, 3⟩
  | .bc3Rgba => ⟨4, 4, 16, 4⟩
  | .bc4R => ⟨4, 4, 8, 1⟩
  | .bc5Rg => ⟨4, 4, 16, 2⟩
  | .bc7Rgba => ⟨4, 4, 16, 4⟩
  | .pvrtc1Rgb => ⟨4, 4, 8, 3⟩
  | .pvrtc1Rgba => ⟨4, 4, 8, 4⟩
  | .astc4x4Rgba => ⟨4, 4, 16, 4⟩
  | .etc2EacR11 => ⟨4, 4, 8, 1⟩
  | .etc2EacRg11 => ⟨4, 4, 16, 2⟩

end PixelFormat

/-- The bytes of one mip level within a pixel buffer. -/
structure MipPosition where
  offset : Nat
  size : Nat
deriving DecidableEq, Repr

/-- Pixels with the place of each stored level, largest first; no positions mean that there is only
the base image. -/
structure ImageData where
  width : Nat := 0
  height : Nat := 0
  channels : Nat := 4
  bytesPerChannel : Nat := 1
  format : PixelFormat := .none
  mips : List MipPosition := []
  pixels : Bytes := []
deriving DecidableEq, Repr

end Gltf
