import Gltf.Record.Operand
import Gltf.Resource.View

/-!
The bytes of buffer views in a root record that a caller has edited. The data of a buffer may be a
text there, and indices and sizes may be any values; faults of values stand beside the problems of
views.
-/

namespace Gltf.Edited

/-- Why an answer is refused: for a reason of its own, or because a value has a fault. -/
inductive Refusal (ρ : Type) where
  | reason (reason : ρ)
  | fault (fault : Fault)

instance {ρ : Type} : MonadLift (Except Fault) (Except (Refusal ρ)) where
  monadLift answer := answer.mapError .fault

def refuse {ρ α : Type} (reason : ρ) : Except (Refusal ρ) α := .error (.reason reason)

/-- The elements of the root that a name stands for. -/
def elementsNamed (root : Record) (name : String) : Except Fault Value := (Value.record root).field name

/-- The end of a view in the data of its buffer. -/
def viewEnd (view : Value) : Except Fault Value := do
  (← view.field "byte_offset").plus (← view.field "byte_length")

/-- The bytes of a buffer view, or the part of the text that stands for them. -/
def viewBytes (root : Record) (index : Value) :
    Except (Refusal (BufferViewProblem Value)) Value := do
  let views ← elementsNamed root "buffer_views"
  if !(← index.isIndexOf views) then refuse (.noView index)
  let view ← views.element index
  let buffers ← elementsNamed root "buffers"
  let buffer ← view.field "buffer"
  if !(← buffer.isIndexOf buffers) then refuse (.noBuffer index buffer)
  let data ← (← buffers.element buffer).field "data"
  if data.isNull then refuse (.noData buffer)
  let stop ← viewEnd view
  if ← stop.greaterThan (.ofInt (← data.length)) then refuse (.pastEnd index buffer)
  data.slice (← view.field "byte_offset") stop

end Gltf.Edited
