import Gltf.Proofs.Resource.Stages
import Mathlib

/-!
Buffers are resolved and images decoded each on its own. With collaborators that answer the same
request always in the same way, what becomes of a resource can be told from its own fields, the
options and the answers for it. It gains its content and nothing is said of it, or it stays as it is,
with one error or without a word.
-/

namespace Gltf

/-! ### Places in messages -/

namespace Diagnostic

end Diagnostic

/-! ### One after the other -/

section
variable {α π : Type} (f : α → α × Option π)

end

/-! ### URIs -/

/-- What a loader answers for a URI, if there is a loader. -/
def asked (loader : Option (Loader Id)) (uri : String) : Option (Except String Bytes) :=
  loader.map fun load => load uri

/-- Whether nobody is there to say what a URI leads to: data URIs are not to be decoded, or there is
no loader. -/
def Unattended {m : Type → Type} (loader : Option (Loader m)) (ro : ReadOptions) (uri : String) :
    Prop :=
  if DataUri.isDataUri uri then ro.decodeDataUris = false else loader = none

section
variable {loader loader' : Option (Loader Id)} {ro : ReadOptions} {uri : String}

end

/-! ### Buffers -/

/-- What becomes of a buffer whose URI leads somewhere, or does not. -/
def Buffer.settle (ro : ReadOptions) (b : Buffer) : Loaded → Buffer × Option BufferProblem
  | .unresolved => (b, none)
  | .failed problem => (b, some (.uri problem))
  | .data bs _ =>
      if (bs.length : Int) < b.byteLength then (b, some (.tooShort bs.length b.byteLength))
      else ({ b with uri := uriAfterDecoding ro b.uri, data := some bs }, none)

section
variable {m : Type → Type} [Monad m] {loader : Option (Loader m)} {ro : ReadOptions} {b : Buffer}
  {uri : String}

theorem resolveBuffer_of_uri [LawfulMonad m] (hdata : b.data = none) (huri : b.uri = some uri) :
    resolveBuffer loader ro b = b.settle ro <$> loadUri loader ro uri := by
  simp only [resolveBuffer, hdata, huri, map_eq_pure_bind]
  congr 1
  funext loaded
  cases loaded with
  | data bs mimeType =>
      simp only [Buffer.settle, huri]
      split_ifs <;> rfl
  | _ => rfl

theorem resolveBuffer_of_no_uri (h : b.uri = none) : resolveBuffer loader ro b = pure (b, none) := by
  cases hdata : b.data <;> simp [resolveBuffer, h, hdata]

end

/-- How the resolution of a buffer ends that has a URI and no data yet: what it is left as, and what
is said of it. -/
inductive Buffer.Ends (loader : Option (Loader Id)) (ro : ReadOptions) (b : Buffer) (uri : String) :
    Buffer → Option BufferProblem → Prop
  | resolved {data : Bytes} {mimeType : Option String}
      (loaded : loadUri loader ro uri = Loaded.data data mimeType)
      (long : b.byteLength ≤ data.length) :
      Ends loader ro b uri { b with uri := uriAfterDecoding ro b.uri, data := some data } none
  | short {data : Bytes} {mimeType : Option String}
      (loaded : loadUri loader ro uri = Loaded.data data mimeType)
      (short : data.length < b.byteLength) :
      Ends loader ro b uri b (some (.tooShort data.length b.byteLength))
  | failed {problem : UriProblem} (loaded : loadUri loader ro uri = Loaded.failed problem) :
      Ends loader ro b uri b (some (.uri problem))
  | silent (unattended : Unattended loader ro uri) : Ends loader ro b uri b none

section
variable {loader loader' : Option (Loader Id)} {ro : ReadOptions} {b b' : Buffer} {uri : String}
  {problem : Option BufferProblem}

end

/-! ### Images -/

/-- The payload in a buffer view. -/
def Payload.ofView (mimeType : Option String) : Except (BufferViewProblem Int) Bytes → Payload
  | .ok bs => .data bs mimeType
  | .error problem => .failed (.bufferView problem)

/-- The payload that a URI leads to. -/
def Payload.ofLoaded (declared : Option String) : Loaded → Payload
  | .data bs mimeType => .data bs (payloadMimeType declared mimeType)
  | .unresolved => .absent
  | .failed problem => .failed (.uri problem)

namespace ImageSource

/-- What becomes of an image whose payload is decoded, or is not. -/
def settle (ro : ReadOptions) (i : ImageSource) :
    Except Image.Problem ImageData → ImageSource × Option ImageProblem
  | .ok image => ({ i with uri := uriAfterDecoding ro i.uri, image := some image }, none)
  | .error problem => (i, some (.payload problem))

variable {m : Type → Type} [Monad m]

/-- What becomes of an image with a payload, or without. -/
def decodeFrom (transcoder : Option (Image.Transcoder m)) (ro : ReadOptions) (i : ImageSource) :
    Payload → m (ImageSource × Option ImageProblem)
  | .absent => pure (i, none)
  | .failed problem => pure (i, some problem)
  | .data bs mimeType => i.settle ro <$> Image.decode ro.targets transcoder mimeType bs

end ImageSource

section
variable {m : Type → Type} [Monad m] {loader : Option (Loader m)}
  {transcoder : Option (Image.Transcoder m)} {ro : ReadOptions} {d : Document} {i : ImageSource}
  {uri : String}

theorem payload_of_view {view : Int} (h : i.bufferView = some view) :
    payload loader ro d i = pure (.ofView i.mimeType (d.viewBytes view)) := by
  simp only [payload, h]
  cases d.viewBytes view <;> rfl

theorem payload_of_uri [LawfulMonad m] (h : i.bufferView = none) (huri : i.uri = some uri) :
    payload loader ro d i = Payload.ofLoaded i.mimeType <$> loadUri loader ro uri := by
  simp only [payload, h, huri, map_eq_pure_bind]
  congr 1
  funext loaded
  cases loaded <;> rfl

theorem payload_of_nothing (h : i.bufferView = none) (huri : i.uri = none) :
    payload loader ro d i = pure .absent := by
  simp only [payload, h, huri]

theorem decodeImage_of_refused (h : Image.isRefused (i.mimeType.getD "") = true) :
    decodeImage loader transcoder ro d i = pure (i, some (.mediaType (i.mimeType.getD ""))) := by
  simp [decodeImage, h]

theorem decodeImage_of_admitted [LawfulMonad m] (h : Image.isRefused (i.mimeType.getD "") = false) :
    decodeImage loader transcoder ro d i =
      payload loader ro d i >>= i.decodeFrom transcoder ro := by
  simp only [decodeImage, h, Bool.false_eq_true, if_false]
  congr 1
  funext p
  cases p with
  | data bs mimeType =>
      simp only [ImageSource.decodeFrom, map_eq_pure_bind]
      congr 1
      funext decoded
      cases decoded <;> rfl
  | _ => rfl

end

/-- What a transcoder answers for a file with a layout, if there is a transcoder. -/
def transcoded (transcoder : Option (Image.Transcoder Id)) (bs : Bytes) (l : Ktx2.Layout) :
    Option (Except Ktx2.TranscodeProblem Bytes) :=
  transcoder.map fun transcode => transcode bs l

/-- How the decoding of an image ends: what it is left as, and what is said of it. -/
inductive ImageSource.Ends (loader : Option (Loader Id)) (transcoder : Option (Image.Transcoder Id))
    (ro : ReadOptions) (d : Document) (i : ImageSource) : ImageSource → Option ImageProblem → Prop
  | decoded {bs : Bytes} {mimeType : Option String} {image : ImageData}
      (admitted : Image.isRefused (i.mimeType.getD "") = false)
      (found : payload loader ro d i = Payload.data bs mimeType)
      (decoded : Image.decode ro.targets transcoder mimeType bs = Except.ok image) :
      Ends loader transcoder ro d i { i with uri := uriAfterDecoding ro i.uri, image := some image }
        none
  | refused (refused : Image.isRefused (i.mimeType.getD "") = true) :
      Ends loader transcoder ro d i i (some (.mediaType (i.mimeType.getD "")))
  | missing {problem : ImageProblem} (admitted : Image.isRefused (i.mimeType.getD "") = false)
      (found : payload loader ro d i = Payload.failed problem) :
      Ends loader transcoder ro d i i (some problem)
  | undecodable {bs : Bytes} {mimeType : Option String} {problem : Image.Problem}
      (admitted : Image.isRefused (i.mimeType.getD "") = false)
      (found : payload loader ro d i = Payload.data bs mimeType)
      (decoded : Image.decode ro.targets transcoder mimeType bs = Except.error problem) :
      Ends loader transcoder ro d i i (some (.payload problem))
  | silent (admitted : Image.isRefused (i.mimeType.getD "") = false) (noView : i.bufferView = none)
      (unattended : ∀ uri, i.uri = some uri → Unattended loader ro uri) :
      Ends loader transcoder ro d i i none

section
variable {loader loader' : Option (Loader Id)}
  {transcoder transcoder' : Option (Image.Transcoder Id)} {ro : ReadOptions} {d d' : Document}
  {i i' : ImageSource}

end

/-! ### Stages -/

namespace Draft

section
variable (loader : Option (Loader Id)) (transcoder : Option (Image.Transcoder Id))
  (ro : ReadOptions) {d : Document} {i : ℕ}

end

end Draft

end Gltf
