import Gltf.Diagnostic
import Gltf.Reading.Reader

/-!
Reading a file from end to end: the container is opened, the JSON parsed, the root object read, and
then the resources are brought in stage by stage. Each stage changes only its own part of the document
and adds its diagnostics behind those of the stages before.
-/

namespace Gltf

/-- Those who do what is not done here: fetch files, transcode textures, decompress meshes. -/
structure Collaborators (m : Type → Type) where
  loader : Option (Loader m) := none
  transcoder : Option (Image.Transcoder m) := none
  draco : Option (Draco.Decoder m) := none
  meshopt : Option (Meshopt.Decoder m) := none

/-- What keeps a file from being read without any verdict on it. -/
inductive ReadFault where
  | integerTooLong
  | negativeLength (cause : Meshopt.NegativeLength)
deriving DecidableEq, Repr

def ReadFault.message : ReadFault → String
  | .integerTooLong => Json.ParseError.integerTooLong.message
  | .negativeLength cause => s!"a buffer with the negative length {cause.length} cannot be filled"

/-- A document on its way through the stages, with what was found so far. -/
structure Draft where
  document : Document
  diagnostics : List Diagnostic

namespace Draft

def add (d : Draft) (document : Document) (diagnostics : List Diagnostic) : Draft :=
  ⟨document, d.diagnostics ++ diagnostics⟩

/-- The document that the root object says. -/
def ofMembers (o : Options) (members : List (String × Json)) : Draft :=
  let (record, findings) := Reading.readRecord o Schema.root ⟨"", []⟩ (.object members)
  ⟨Document.ofRecord (record.getD Schema.root.blank), findings.map .reading⟩

def bind (chunk : Option Bytes) (d : Draft) : Draft :=
  match chunk with
  | none => d
  | some chunk =>
      let (buffers, problem) := bindBinary chunk d.document.buffers
      d.add { d.document with buffers } (problem.map Diagnostic.binary).toList

variable {m : Type → Type} [Monad m]

def resolve (loader : Option (Loader m)) (ro : ReadOptions) (d : Draft) : m Draft := do
  let (buffers, problems) ← resolveBuffers loader ro 0 d.document.buffers
  pure (d.add { d.document with buffers } (problems.map fun (i, p) => .buffer i p))

def decodeViews (decoder : Option (Meshopt.Decoder m)) (d : Draft) :
    m (Except Meshopt.NegativeLength Draft) := do
  let r ← Meshopt.decodeAll decoder d.document
  match r.fault with
  | some cause => pure (.error cause)
  | none =>
      pure (.ok (d.add { d.document with buffers := r.buffers }
        (r.problems.map fun (i, p) => .bufferView i p)))

def decodePrimitives (decoder : Option (Draco.Decoder m)) (d : Draft) : m Draft := do
  let r ← Draco.decodeAll decoder d.document
  pure (d.add r.document (r.problems.map fun (place, p) => .primitive place p))

def decodeImages (loader : Option (Loader m)) (transcoder : Option (Image.Transcoder m))
    (ro : ReadOptions) (d : Draft) : m Draft := do
  let (images, problems) ← Gltf.decodeImages loader transcoder ro d.document 0 d.document.images
  pure (d.add { d.document with images } (problems.map fun (i, p) => .image i p))

/-- Brings in all that the document refers to, as far as the options ask for it. -/
def attach (c : Collaborators m) (ro : ReadOptions) (chunk : Option Bytes) (d : Draft) :
    m (Except Meshopt.NegativeLength Draft) := do
  let d ← (d.bind chunk).resolve c.loader ro
  match ← if ro.decodeMeshopt then d.decodeViews c.meshopt else pure (.ok d) with
  | .error e => pure (.error e)
  | .ok d => do
      let d ← if ro.decodeDraco then d.decodePrimitives c.draco else pure d
      let d ← if ro.decodeImages then d.decodeImages c.loader c.transcoder ro else pure d
      pure (.ok d)

end Draft

/-- A file without a document, or a document with what was found in it. -/
inductive ReadResult where
  | unreadable (cause : Unreadable)
  | document (d : Document) (diagnostics : List Diagnostic)

namespace ReadResult

def document? : ReadResult → Option Document
  | .unreadable _ => none
  | .document d _ => some d

def errors : ReadResult → List String
  | .unreadable cause => [cause.message]
  | .document _ diagnostics => messages .error diagnostics

def warnings : ReadResult → List String
  | .unreadable _ => []
  | .document _ diagnostics => messages .warning diagnostics

/-- Whether there is a document, and no error in it. -/
def isOk (r : ReadResult) : Bool := r.document?.isSome && r.errors.isEmpty

end ReadResult

/-- The JSON of a file, and what the container around it holds if there is one. -/
def contents (bs : Bytes) : Except Glb.Problem Glb.Contents :=
  if Glb.isGlb bs then Glb.read bs else .ok ⟨bs, none, []⟩

variable {m : Type → Type} [Monad m]

/-- Reads what a container or a file on its own holds. -/
def readContents (c : Collaborators m) (o : Options) (ro : ReadOptions) (file : Glb.Contents) :
    m (Except ReadFault ReadResult) :=
  match Json.parse file.json with
  | .error .integerTooLong => pure (.error .integerTooLong)
  | .error error => pure (.ok (.unreadable (.json error)))
  | .ok (.object members) => do
      match ← (Draft.ofMembers o members).attach c ro file.binary with
      | .error e => pure (.error (.negativeLength e))
      | .ok d =>
          pure (.ok (.document d.document (file.warnings.map Diagnostic.container ++ d.diagnostics)))
  | .ok value => pure (.ok (.unreadable (.root value.kind)))

def read (c : Collaborators m) (o : Options) (ro : ReadOptions) (bs : Bytes) :
    m (Except ReadFault ReadResult) :=
  match contents bs with
  | .error problem => pure (.ok (.unreadable (.container problem)))
  | .ok file => readContents c o ro file

end Gltf
