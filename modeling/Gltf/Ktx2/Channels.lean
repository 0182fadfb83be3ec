import Gltf.Ktx2.Header

/-!
The codec of a Basis Universal payload and the channels it holds, from the data format descriptor.
Without a usable descriptor the channels are taken to be red, green, blue and alpha.
-/

namespace Gltf.Ktx2

inductive Codec where
  | etc1s
  | uastc
deriving DecidableEq, Repr

def Codec.name : Codec → String
  | .etc1s => "etc1s"
  | .uastc => "uastc"

def Codec.title : Codec → String
  | .etc1s => "ETC1S"
  | .uastc => "UASTC"

inductive Channels where
  | r
  | rg
  | rgb
  | rgba
deriving DecidableEq, Repr

def Channels.name : Channels → String
  | .r => "r"
  | .rg => "rg"
  | .rgb => "rgb"
  | .rgba => "rgba"

/-- The channels that a list of sample types stands for in ETC1S. -/
def etc1sChannels : List Nat → Channels
  | [0] => .rgb
  | [3] => .r
  | [3, 4] => .rg
  | _ => .rgba

/-- The channels that the type of the first sample stands for in UASTC. -/
def uastcChannels : List Nat → Channels
  | [] => .rgba
  | type :: _ =>
      match type with
      | 0 => .rgb
      | 4 => .r
      | 5 => .rg
      | 6 => .rg
      | _ => .rgba

def byteAt (bs : Bytes) (offset : Nat) : Nat := Bytes.natAt bs offset 1

/-- The sample types of the descriptor block at an offset, of those samples that lie in the file. -/
def sampleTypes (bs : Bytes) (block : Nat) : List Nat :=
  let blockSize := Bytes.natAt bs (block + 6) 2
  ((List.range ((blockSize - 24) / 16)).filter fun i => block + 24 + 16 * i + 4 ≤ bs.length).map
    fun i => byteAt bs (block + 24 + 16 * i + 3) % 16

def Header.defaultCodec (h : Header) : Codec := if h.supercompression = 1 then .etc1s else .uastc

/-- The codec and channels of a file with this header. -/
def basisChannels (bs : Bytes) (h : Header) : Codec × Channels :=
  let block := h.dfd.offset + 4
  if h.dfd.length < 28 ∨ bs.length < block + 24 then (h.defaultCodec, .rgba)
  else
    match byteAt bs (block + 8) with
    | 163 => (.etc1s, etc1sChannels (sampleTypes bs block))
    | 166 => (.uastc, uastcChannels (sampleTypes bs block))
    | _ => (h.defaultCodec, .rgba)

end Gltf.Ktx2
