import Gltf.Image.Decode
import Gltf.Resource.Buffers
import Gltf.Resource.View

/-!
Decoding the images of a document. The payload of an image lies in a buffer view or behind a URI;
each image is decoded on its own, and one that cannot be decoded stays as it is.
-/

namespace Gltf

inductive ImageProblem where
  | mediaType (name : String)
  | bufferView (problem : BufferViewProblem Int)
  | uri (problem : UriProblem)
  | payload (problem : Image.Problem)
deriving DecidableEq, Repr

/-- The payload of an image with the media type it goes by. -/
inductive Payload where
  | data (bs : Bytes) (mimeType : Option String)
  | absent
  | failed (problem : ImageProblem)
deriving DecidableEq, Repr

/-- The media type that a payload goes by: the declared one, or else that of the data URI if it is
one of images. -/
def payloadMimeType (declared fromUri : Option String) : Option String :=
  if declared.any (!·.isEmpty) then declared
  else if fromUri.any (·.startsWith "image/") then fromUri
  else declared

variable {m : Type → Type} [Monad m]

def payload (loader : Option (Loader m)) (o : ReadOptions) (d : Document) (i : ImageSource) :
    m Payload :=
  match i.bufferView, i.uri with
  | some view, _ =>
      match d.viewBytes view with
      | .ok bs => pure (.data bs i.mimeType)
      | .error problem => pure (.failed (.bufferView problem))
  | none, some uri => do
      match ← loadUri loader o uri with
      | .data bs mimeType => pure (.data bs (payloadMimeType i.mimeType mimeType))
      | .unresolved => pure .absent
      | .failed problem => pure (.failed (.uri problem))
  | none, none => pure .absent

def decodeImage (loader : Option (Loader m)) (transcoder : Option (Image.Transcoder m))
    (o : ReadOptions) (d : Document) (i : ImageSource) : m (ImageSource × Option ImageProblem) :=
  let declared := i.mimeType.getD ""
  if Image.isRefused declared then pure (i, some (.mediaType declared))
  else do
    match ← payload loader o d i with
    | .absent => pure (i, none)
    | .failed problem => pure (i, some problem)
    | .data bs mimeType =>
        match ← Image.decode o.targets transcoder mimeType bs with
        | .error problem => pure (i, some (.payload problem))
        | .ok image =>
            pure ({ i with uri := uriAfterDecoding o i.uri, image := some image }, none)

/-- Decodes images in their order; problems come with the index of their image. -/
def decodeImages (loader : Option (Loader m)) (transcoder : Option (Image.Transcoder m))
    (o : ReadOptions) (d : Document) (index : Nat) :
    List ImageSource → m (List ImageSource × List (Nat × ImageProblem))
  | [] => pure ([], [])
  | i :: is => do
      let (i, problem) ← decodeImage loader transcoder o d i
      let (is, problems) ← decodeImages loader transcoder o d (index + 1) is
      pure (i :: is, (problem.map (index, ·)).toList ++ problems)

end Gltf
