import Gltf.DataUri
import Gltf.Document
import Gltf.Ktx2.Layout

/-!
Contents of buffers: the binary chunk of the container belongs to the first one, and the others are
decoded from data URIs or loaded. Loading happens in a monad of the caller's choice. Each buffer is
resolved on its own, and one that cannot be resolved stays as it is.
-/

namespace Gltf

/-- What to do with a document that has been read. -/
structure ReadOptions where
  decodeDataUris : Bool := true
  /-- Whether the data URI of a resource is dropped once the resource is decoded. -/
  clearDataUris : Bool := true
  decodeImages : Bool := true
  decodeDraco : Bool := true
  decodeMeshopt : Bool := true
  targets : Ktx2.Targets := {}

/-- Fetches the bytes of a URI, or says why not. -/
abbrev Loader (m : Type → Type) := String → m (Except String Bytes)

inductive UriProblem where
  | dataUri (problem : DataUri.Problem)
  | loader (uri text : String)
deriving DecidableEq, Repr

def UriProblem.message : UriProblem → String
  | .dataUri problem => problem.message
  | .loader uri text => s!"could not load '{uri}': {text}"

/-- What a URI leads to. It stays unresolved where nobody is there to resolve it. -/
inductive Loaded where
  | data (bs : Bytes) (mimeType : Option String)
  | unresolved
  | failed (problem : UriProblem)
deriving DecidableEq, Repr

variable {m : Type → Type} [Monad m]

def loadUri (loader : Option (Loader m)) (o : ReadOptions) (uri : String) : m Loaded :=
  if DataUri.isDataUri uri then
    if o.decodeDataUris then
      match DataUri.decode uri with
      | .ok decoded => pure (.data decoded.data (some decoded.mimeType))
      | .error problem => pure (.failed (.dataUri problem))
    else pure .unresolved
  else
    match loader with
    | none => pure .unresolved
    | some load => do
        match ← load uri with
        | .ok bs => pure (.data bs none)
        | .error text => pure (.failed (.loader uri text))

/-- The URI that a decoded resource is left with. -/
def uriAfterDecoding (o : ReadOptions) (uri : Option String) : Option String :=
  if o.clearDataUris && uri.any DataUri.isDataUri then none else uri

inductive BufferProblem where
  | uri (problem : UriProblem)
  | tooShort (found : Nat) (declared : Int)
deriving DecidableEq, Repr

def resolveBuffer (loader : Option (Loader m)) (o : ReadOptions) (b : Buffer) :
    m (Buffer × Option BufferProblem) :=
  match b.data, b.uri with
  | none, some uri => do
      match ← loadUri loader o uri with
      | .unresolved => pure (b, none)
      | .failed problem => pure (b, some (.uri problem))
      | .data bs _ =>
          if (bs.length : Int) < b.byteLength then
            pure (b, some (.tooShort bs.length b.byteLength))
          else pure ({ b with uri := uriAfterDecoding o b.uri, data := some bs }, none)
  | _, _ => pure (b, none)

/-- Resolves buffers in their order; problems come with the index of their buffer. -/
def resolveBuffers (loader : Option (Loader m)) (o : ReadOptions) (i : Nat) :
    List Buffer → m (List Buffer × List (Nat × BufferProblem))
  | [] => pure ([], [])
  | b :: bs => do
      let (b, problem) ← resolveBuffer loader o b
      let (bs, problems) ← resolveBuffers loader o (i + 1) bs
      pure (b :: bs, (problem.map (i, ·)).toList ++ problems)

inductive BinaryProblem where
  | noBuffers
  | hasUri
  | tooLong (declared : Int) (actual : Nat)
  | tooShort (declared : Int) (actual : Nat)
deriving DecidableEq, Repr

def BinaryProblem.message : BinaryProblem → String
  | .noBuffers => "GLB has a BIN chunk but the document declares no buffers"
  | .hasUri => "GLB has a BIN chunk but buffers[0] has a uri"
  | .tooLong declared actual =>
      s!"buffers[0].byteLength {declared} is larger than the {actual}-byte BIN chunk"
  | .tooShort declared actual =>
      s!"buffers[0].byteLength {declared} is more than 3 bytes smaller than the {actual}-byte BIN chunk"

/-- Gives the binary chunk to the first buffer. The chunk may be up to three bytes of padding
longer. -/
def bindBinary (chunk : Bytes) : List Buffer → List Buffer × Option BinaryProblem
  | [] => ([], some .noBuffers)
  | b :: bs =>
      if b.uri.isSome then (b :: bs, some .hasUri)
      else if (chunk.length : Int) < b.byteLength then
        (b :: bs, some (.tooLong b.byteLength chunk.length))
      else if 3 < chunk.length - b.byteLength then
        (b :: bs, some (.tooShort b.byteLength chunk.length))
      else ({ b with data := some (Bytes.slice chunk 0 b.byteLength) } :: bs, none)

end Gltf
