import Gltf.Compression.Zlib
import Gltf.Compression.Zstandard
import Gltf.Ktx2.Layout

/-!
Pixels of KTX2 files. A transcoder turns a file and its layout into the pixels of all levels;
`plainPixels` is the one for formats of plain 8-bit channels, which only need decompressing.
-/

namespace Gltf.Ktx2

inductive TranscodeProblem where
  | basis (codec : Option Codec)
  | zstandard (level : Nat) (problem : Zstandard.Problem)
  | zlib (level : Nat) (problem : Zlib.Problem)
  | unsupportedScheme (scheme : Nat)
  | levelSize (level found expected : Nat)
  /-- A transcoder that cannot do it says so. -/
  | refused (text : String)
  /-- A transcoder breaks off for another reason. -/
  | failed (text : String)
  | totalSize (found expected : Nat)
deriving DecidableEq, Repr

def TranscodeProblem.message : TranscodeProblem → String
  | .basis codec =>
      let title := (codec.map Codec.title).getD "unknown"
      s!"Basis Universal ({title}) KTX2 payloads need an image transcoder"
  | .zstandard level problem =>
      s!"KTX2 level {level}: Zstandard decompression failed: {problem.message}"
  | .zlib level problem => s!"KTX2 level {level}: zlib decompression failed: {problem.message}"
  | .unsupportedScheme scheme => s!"Unsupported KTX2 supercompression scheme {scheme}"
  | .levelSize level found expected =>
      s!"KTX2 level {level} decoded to {found} bytes, expected {expected}"
  | .refused text => text
  | .failed text => s!"Image transcoder failed: {text}"
  | .totalSize found expected => s!"Transcoder returned {found} bytes, expected {expected}"

/-- A transcoder breaks off if there is no buffer for the content of a level. -/
def ofZstandard (index : Nat) (problem : Zstandard.Problem) : TranscodeProblem :=
  if problem.isOfBuffer then .failed problem.message else .zstandard index problem

/-- What levels are decompressed with; Zstandard is given the size that a level states. -/
structure Decompressors where
  zstandard : Bytes → Nat → Except Zstandard.Problem Bytes
  zlib : Bytes → Except Zlib.Problem Bytes

def Decompressors.standard : Decompressors := ⟨Zstandard.decompress, Zlib.decompress⟩

/-- The content of a stored level. -/
def decompressLevel (ds : Decompressors) (scheme index : Nat) (level : Level) (stored : Bytes) :
    Except TranscodeProblem Bytes :=
  match scheme with
  | 0 => .ok stored
  | 2 => (ds.zstandard stored level.uncompressedLength).mapError (ofZstandard index)
  | 3 => (ds.zlib stored).mapError (.zlib index)
  | _ => .error (.unsupportedScheme scheme)

/-- The contents of the levels from one on, one behind the other. -/
def levelPixels (ds : Decompressors) (bs : Bytes) (scheme index : Nat) :
    List Level → List MipPosition → Except TranscodeProblem Bytes
  | level :: levels, place :: places => do
      let content ←
        decompressLevel ds scheme index level ((bs.drop level.offset).take level.length)
      if content.length ≠ place.size then
        .error (.levelSize index content.length place.size)
      else
        let rest ← levelPixels ds bs scheme (index + 1) levels places
        .ok (content ++ rest)
  | _, _ => .ok []

def plainPixelsBy (ds : Decompressors) (bs : Bytes) (l : Layout) : Except TranscodeProblem Bytes :=
  if l.header.isBasis then .error (.basis l.codec)
  else levelPixels ds bs l.header.supercompression 0 l.header.levels l.levels

def plainPixels : Bytes → Layout → Except TranscodeProblem Bytes := plainPixelsBy .standard

end Gltf.Ktx2
