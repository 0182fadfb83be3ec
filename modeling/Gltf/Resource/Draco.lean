import Gltf.Resource.View

/-!
Mesh primitives with Draco compression. A decoder turns the bytes of a buffer view into the content
of the primitive's accessors; each content becomes a buffer with a view of its own, appended to the
document, and the accessor is pointed at it.
-/

namespace Gltf.Draco

/-- The buffer view with the compressed bytes, and the number that each attribute has in them. -/
structure Compression where
  bufferView : Int
  attributes : Table String Int
deriving DecidableEq, Repr

def Compression.ofRecord (r : Record) : Compression where
  bufferView := r.intField "buffer_view" (-1)
  attributes := Record.intEntries (r.field "attributes")

/-- The compression of a primitive, if its extension was read as a record. -/
def compression? (p : MeshPrimitive) : Option Compression :=
  (p.attachments.typed? Schema.dracoMeshCompression.extensionName
    Schema.dracoMeshCompression.name).map Compression.ofRecord

/-- Contents of accessors, tightly packed. -/
structure DecodedMesh where
  indices : Option Bytes := none
  attributes : Table String Bytes := []
deriving DecidableEq, Repr

abbrev Decoder (m : Type → Type) := Bytes → Table String Int → m (Except String DecodedMesh)

/-- Why a primitive is not decoded, or an accessor not filled; `ι` is the type of indices. -/
inductive Problem (ι : Type) where
  | noDecoder
  | view (problem : BufferViewProblem ι)
  | failed (text : String)
  | noContent (semantic : String)
  | noAccessor (semantic : String) (accessor : ι)
deriving DecidableEq, Repr

def Problem.message {ι : Type} [ToString ι] : Problem ι → String
  | .noDecoder =>
      s!"{Schema.dracoMeshCompression.extensionName} present but no Draco decoder is configured"
  | .view problem => s!"Draco decoding failed: {problem.message}"
  | .failed text => s!"Draco decoding failed: {text}"
  | .noContent semantic => s!"Draco decoder produced no data for {semantic}"
  | .noAccessor semantic accessor => s!"{semantic} references missing accessor {accessor}"

/-- The document with a buffer and a view on the whole of it appended. -/
def append (d : Document) (content : Bytes) : Document :=
  { d with
    buffers := d.buffers ++ [{ byteLength := content.length, data := some content }]
    bufferViews := d.bufferViews ++
      [{ buffer := d.buffers.length, byteOffset := 0, byteLength := content.length }] }

/-- An accessor to be filled, and its content if the decoder has made it. -/
structure Target where
  semantic : String
  accessor : Int
  content : Option Bytes
deriving DecidableEq, Repr

/-- The accessors that a decoded primitive fills: that of its indices, and those of the compressed
attributes. -/
def targets (p : MeshPrimitive) (c : Compression) (mesh : DecodedMesh) : List Target :=
  (p.indices.map fun i => ⟨"indices", i, mesh.indices⟩).toList ++
    (p.attributes.filter fun a => (Table.get? c.attributes a.1).isSome).map
      fun (semantic, accessor) => ⟨semantic, accessor, Table.get? mesh.attributes semantic⟩

/-- Points an accessor at its content. -/
def fill (d : Document) (t : Target) : Document × Option (Problem Int) :=
  match t.content with
  | none => (d, some (.noContent t.semantic))
  | some content =>
      match elementAt? d.accessors t.accessor with
      | none => (d, some (.noAccessor t.semantic t.accessor))
      | some accessor =>
          let view : Int := d.bufferViews.length
          let filled := { accessor with bufferView := some view, byteOffset := 0 }
          (append { d with accessors := d.accessors.set t.accessor.toNat filled } content, none)

def fillAll (d : Document) : List Target → Document × List (Problem Int)
  | [] => (d, [])
  | t :: ts =>
      let (d, problem) := fill d t
      let (d, problems) := fillAll d ts
      (d, problem.toList ++ problems)

/-- A primitive's place in the meshes of a document. -/
structure Location where
  mesh : Nat
  primitive : Nat
deriving DecidableEq, Repr

/-- The document after decoding, the number of primitives decoded, and the problems with the places
of their primitives. -/
structure Result where
  document : Document
  decoded : Nat
  problems : List (Location × Problem Int)

variable {m : Type → Type} [Monad m]

/-- The mesh that a primitive's compressed bytes hold. -/
def decodeMesh (decode : Decoder m) (d : Document) (c : Compression) :
    m (Except (Problem Int) DecodedMesh) :=
  match d.viewBytes c.bufferView with
  | .error problem => pure (.error (.view problem))
  | .ok bs => do
      match ← decode bs c.attributes with
      | .ok mesh => pure (.ok mesh)
      | .error text => pure (.error (.failed text))

def decodePrimitive (decoder : Option (Decoder m)) (place : Location) (r : Result)
    (p : MeshPrimitive) : m Result :=
  match compression? p, decoder with
  | none, _ => pure r
  | some _, none => pure { r with problems := r.problems ++ [(place, .noDecoder)] }
  | some c, some decode => do
      match ← decodeMesh decode r.document c with
      | .error problem => pure { r with problems := r.problems ++ [(place, problem)] }
      | .ok mesh =>
          let (document, problems) := fillAll r.document (targets p c mesh)
          pure {
            document
            decoded := r.decoded + 1
            problems := r.problems ++ problems.map (place, ·) }

/-- The primitives of all meshes in their order, with their places. -/
def located (meshes : List Mesh) : List (Location × MeshPrimitive) :=
  meshes.zipIdx.flatMap fun (mesh, i) =>
    mesh.primitives.zipIdx.map fun (primitive, j) => (⟨i, j⟩, primitive)

def decodePrimitives (decoder : Option (Decoder m)) (r : Result) :
    List (Location × MeshPrimitive) → m Result
  | [] => pure r
  | (place, p) :: rest => do
      let r ← decodePrimitive decoder place r p
      decodePrimitives decoder r rest

/-- Decodes all compressed primitives of a document. -/
def decodeAll (decoder : Option (Decoder m)) (d : Document) : m Result :=
  decodePrimitives decoder ⟨d, 0, []⟩ (located d.meshes)

end Gltf.Draco
