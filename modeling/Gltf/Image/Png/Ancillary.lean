import Gltf.Image.Png.Chunk
import Gltf.Image.RasterProblem

/-!
Chunks of PNG files that say nothing about the pixels. Their fields are passed over, but they have to
be there.
-/

namespace Gltf.Png

/-- Refuses a chunk that is shorter than its fields. -/
def requireSize (size : Nat) (problem : RasterProblem) (payload : Bytes) : Option RasterProblem :=
  if payload.length < size then some problem else none

/-- What follows a name that a zero ends, if it ends. -/
def behindName (payload : Bytes) : Bytes := (payload.dropWhile (· != 0)).drop 1

/-- What is wrong with the fields of a chunk. Profiles and packed texts name a method of compression
behind their own name, of which there is only method zero; a text may be empty. -/
def ancillaryProblem? (head : ChunkHead) : Option RasterProblem :=
  match head.name with
  | "sRGB" => requireSize 1 (.shortChunk head.name) head.payload
  | "pHYs" => requireSize 9 (.shortChunk head.name) head.payload
  | "acTL" => requireSize 8 (.shortAnimationChunk head.name) head.payload
  | "fcTL" => requireSize 26 (.shortAnimationChunk head.name) head.payload
  | "gAMA" => requireSize 4 .unidentified head.payload
  | "cHRM" => if head.payload.length % 4 = 0 then none else some .unidentified
  | "iCCP" => if (behindName head.payload).head? = some 0 then none else some .unidentified
  | "zTXt" =>
      if (behindName head.payload).head?.getD 0 = 0 then none else some .unidentified
  | _ => none

end Gltf.Png
