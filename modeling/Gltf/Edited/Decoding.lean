import Gltf.Diagnostic
import Gltf.Edited.Bytes

/-!
Runs of a decoder over a root record that a caller has edited. A run changes what it decodes and
nothing else; where it meets a fault it breaks off, and what it has changed before stays.
-/

namespace Gltf.Edited

/-- The root as far as a run has come, how much it has decoded, and what there is to report. -/
structure Progress where
  root : Record
  decoded : Nat := 0
  diagnostics : List (Diagnostic Value) := []

abbrev Run (m : Type → Type) := ExceptT Fault (StateT Progress m)

namespace Run

variable {m : Type → Type} [Monad m]

def root : Run m Record := do pure (← get).root

def report (diagnostic : Diagnostic Value) : Run m Unit :=
  modify fun p => { p with diagnostics := p.diagnostics ++ [diagnostic] }

def countDecoded : Run m Unit := modify fun p => { p with decoded := p.decoded + 1 }

/-- An answer of a value, or a fault that ends the run. -/
def ask {α : Type} (answer : Except Fault α) : Run m α := ExceptT.mk (pure answer)

/-- Changes a field of the root. -/
def change (name : String) (f : Value → Except Fault Value) : Run m Unit := do
  let root ← root
  let new ← ask (f (root.field name))
  modify fun p => { p with root := root.setField name new }

/-- Runs over the elements of a value with their indices. -/
def forElements (container : Value) (f : Nat → Value → Run m Unit) : Run m Unit := do
  for (element, i) in (← ask container.elements).zipIdx do
    f i element

end Run

/-- The list with a record at its end. -/
def appended (container : Value) (r : Record) : Except Fault Value :=
  match container with
  | .list items => .ok (.list (items ++ [.record r]))
  | container => .error (.noField container.kindName "append")

/-- The list with fields set in the record at an index. -/
def withFields (container index : Value) (fields : List (String × Value)) : Except Fault Value := do
  match container, ← container.element index, index.integer? with
  | .list items, .record r, some i =>
      .ok (.list (items.set i.toNat (.record (fields.foldl (fun r f => r.setField f.1 f.2) r))))
  | _, element, _ => .error (.noField element.kindName ((fields.head?.map (·.1)).getD ""))

end Gltf.Edited
