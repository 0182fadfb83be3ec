import Gltf.Document

/-!
The bytes of buffer views. An offset and a length are signed, and only their sum is checked, so the
bytes are those of a signed range.
-/

namespace Gltf

/-- Why a view has no bytes; `ι` is the type of indices. -/
inductive BufferViewProblem (ι : Type) where
  | noView (view : ι)
  | noBuffer (view buffer : ι)
  | noData (buffer : ι)
  | pastEnd (view buffer : ι)
deriving DecidableEq, Repr

def BufferViewProblem.message {ι : Type} [ToString ι] : BufferViewProblem ι → String
  | .noView view => s!"bufferView {view} does not exist"
  | .noBuffer view buffer => s!"bufferView {view} references missing buffer {buffer}"
  | .noData buffer => s!"buffer {buffer} has no data"
  | .pastEnd view buffer => s!"bufferView {view} extends past the end of buffer {buffer}"

namespace Document

def viewBytes (d : Document) (index : Int) : Except (BufferViewProblem Int) Bytes :=
  match elementAt? d.bufferViews index with
  | none => .error (.noView index)
  | some view =>
      match elementAt? d.buffers view.buffer with
      | none => .error (.noBuffer index view.buffer)
      | some buffer =>
          match buffer.data with
          | none => .error (.noData view.buffer)
          | some data =>
              let stop := view.byteOffset + view.byteLength
              if (data.length : Int) < stop then .error (.pastEnd index view.buffer)
              else .ok (Bytes.slice data view.byteOffset stop)

end Document

end Gltf
