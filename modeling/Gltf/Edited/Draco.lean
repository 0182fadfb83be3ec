import Gltf.Edited.Decoding

/-!
Draco decoding of a root record that a caller has edited. Faults met on the way to the decoder are
reported like failures of the decoder; those behind it end the run.
-/

namespace Gltf.Edited.Draco

open Gltf.Draco (DecodedMesh Location)

abbrev Decoder (m : Type → Type) := Value → Table String Value → m (Except String DecodedMesh)

def failureOf : Refusal (BufferViewProblem Value) → Gltf.Draco.Problem Value
  | .reason problem => .view problem
  | .fault fault => .failed fault.message

/-- The bytes of a compression and the numbers of its attributes. -/
def compressed (root : Record) (compression : Value) :
    Except (Refusal (BufferViewProblem Value)) (Value × Table String Value) := do
  let bytes ← viewBytes root (← compression.field "buffer_view")
  pure (bytes, ← (← compression.field "attributes").entriesOf)

/-- Whether the attributes of a compression have one of this name. Of texts only the empty one is in
what is empty. -/
def isCompressed (attributes : Value) (semantic : String) : Except Fault Bool :=
  match attributes with
  | .map entries => .ok (Table.get? entries semantic).isSome
  | .json (.object members) => .ok (Table.get? members semantic).isSome
  | .json (.string _) => .ok semantic.isEmpty
  | attributes => .error (.noContent attributes.kindName)

/-- An accessor to be filled, and its content if the decoder has made it. -/
structure Target where
  semantic : String
  accessor : Value
  content : Option Bytes

def indicesTarget (primitive : Value) (mesh : DecodedMesh) : Except Fault (List Target) := do
  let accessor ← primitive.field "indices"
  .ok (if accessor.isNull then [] else [⟨"indices", accessor, mesh.indices⟩])

def attributeTargets (primitive compression : Value) (mesh : DecodedMesh) :
    Except Fault (List Target) := do
  match ← primitive.field "attributes" with
  | .map entries =>
      let compressed ← compression.field "attributes"
      let chosen ← entries.filterM fun (semantic, _) => isCompressed compressed semantic
      .ok (chosen.map fun (semantic, accessor) =>
        ⟨semantic, accessor, Table.get? mesh.attributes semantic⟩)
  | attributes => .error (.noField attributes.kindName "items")

variable {m : Type → Type} [Monad m]

/-- Appends a buffer and a view on the whole of it; gives the index of the view. -/
def append (content : Bytes) : Run m Value := do
  let buffer : Buffer := { byteLength := content.length, data := some content }
  Run.change "buffers" (appended · buffer.toRecord)
  let buffers ← Run.ask ((← Run.root).field "buffers").length
  let view : BufferView := { buffer := (buffers : Int) - 1, byteLength := content.length }
  Run.change "buffer_views" (appended · view.toRecord)
  let views ← Run.ask ((← Run.root).field "buffer_views").length
  pure (.ofInt ((views : Int) - 1))

/-- Points an accessor at its content. -/
def fill (place : Location) (t : Target) : Run m Unit := do
  match t.content with
  | none => Run.report (.primitive place (.noContent t.semantic))
  | some content =>
      let accessors := (← Run.root).field "accessors"
      if ← Run.ask (t.accessor.isIndexOf accessors) then
        let _ ← Run.ask (accessors.element t.accessor)
        let view ← append content
        Run.change "accessors"
          (withFields · t.accessor [("buffer_view", view), ("byte_offset", .ofInt 0)])
      else Run.report (.primitive place (.noAccessor t.semantic t.accessor))

def decodePrimitive (decoder : Option (Decoder m)) (place : Location) (primitive : Value) :
    Run m Unit := do
  match ← Run.ask (primitive.extension? Schema.dracoMeshCompression), decoder with
  | none, _ => pure ()
  | some _, none => Run.report (.primitive place .noDecoder)
  | some compression, some decode =>
      match compressed (← Run.root) (.record compression) with
      | .error refusal => Run.report (.primitive place (failureOf refusal))
      | .ok (bytes, attributes) =>
          match ← (decode bytes attributes : m _) with
          | .error text => Run.report (.primitive place (.failed text))
          | .ok mesh =>
              let indices ← Run.ask (indicesTarget primitive mesh)
              let attributes ← Run.ask (attributeTargets primitive (.record compression) mesh)
              (indices ++ attributes).forM (fill place)
              Run.countDecoded

/-- Decodes the compressed primitives of all meshes. -/
def decodeAll (decoder : Option (Decoder m)) (root : Record) : m (Except Fault Unit × Progress) :=
  let run : Run m Unit :=
    Run.forElements (root.field "meshes") fun i mesh => do
      Run.forElements (← Run.ask (mesh.field "primitives")) fun j primitive =>
        decodePrimitive decoder ⟨i, j⟩ primitive
  run.run.run { root }

end Gltf.Edited.Draco
