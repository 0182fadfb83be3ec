import Gltf.Record

/-!
Faults of values. A field that a caller has set may hold anything, so what is asked of its value may
be something that values of that kind do not do.
-/

namespace Gltf

/-- The kind of a value as messages name it. -/
def Value.kindName : Value → String
  | .json .null => "NoneType"
  | .json (.bool _) => "bool"
  | .json (.number (.int _)) => "int"
  | .json (.number (.float _)) => "float"
  | .json (.string _) => "str"
  | .json (.array _) => "list"
  | .json (.object _) => "dict"
  | .list _ => "list"
  | .map _ => "dict"
  | .record r => r.lineage.name
  | .bytes _ => "bytes"

inductive Fault where
  | unordered (relation left right : String)
  | noOperation (operator left right : String)
  | noText (kind : String)
  | noByteString (kind : String)
  | noRepetition (kind : String)
  /-- An integer that has no nearest finite binary64. -/
  | tooLarge
  /-- An integer that eight bytes do not hold. -/
  | beyondWord
  /-- More bytes than there can be. -/
  | noMemory
  | noInteger (kind : String)
  | noContent (kind : String)
  | negativeLength
  | noLength (kind : String)
  | noItems (kind : String)
  | noPosition (container kind : String)
  | noBound
  | noItem (container : String)
  | noElements (kind : String)
  | shortEntry
  | noEntry
  | noKey (key : String)
  | noField (kind name : String)
  /-- A field that records of a kind cannot be given. -/
  | foreignField (kind name : String)
deriving DecidableEq, Repr

namespace Fault

/-- What a fault is about: the kind of a value, a field or key or item that is not there, the value
itself, its size, or the memory it takes. -/
inductive Subject where
  | kind
  | field
  | key
  | item
  | value
  | size
  | memory
deriving DecidableEq, Repr

def subject : Fault → Subject
  | .noField _ _ => .field
  | .noKey _ => .key
  | .noItem _ => .item
  | .negativeLength | .shortEntry | .foreignField _ _ => .value
  | .tooLarge | .beyondWord => .size
  | .noMemory => .memory
  | _ => .kind

/-- Texts have a wording of their own for positions. -/
def positionText (container kind : String) : String :=
  match container with
  | "str" => s!"string indices must be integers, not '{kind}'"
  | "bytes" => s!"byte indices must be integers or slices, not {kind}"
  | container => s!"{container} indices must be integers or slices, not {kind}"

def message : Fault → String
  | .unordered relation left right =>
      s!"'{relation}' not supported between instances of '{left}' and '{right}'"
  | .noOperation operator left right =>
      s!"unsupported operand type(s) for {operator}: '{left}' and '{right}'"
  | .noText kind => s!"can only concatenate str (not \"{kind}\") to str"
  | .noByteString kind => s!"can't concat {kind} to bytes"
  | .noRepetition kind => s!"can't multiply sequence by non-int of type '{kind}'"
  | .tooLarge => "int too large to convert to float"
  | .beyondWord => "cannot fit 'int' into an index-sized integer"
  | .noMemory => ""
  | .noInteger kind => s!"'{kind}' object cannot be interpreted as an integer"
  | .noContent kind => s!"cannot convert '{kind}' object to bytes"
  | .negativeLength => "negative count"
  | .noLength kind => s!"object of type '{kind}' has no len()"
  | .noItems kind => s!"'{kind}' object is not subscriptable"
  | .noPosition container kind => positionText container kind
  | .noBound => "slice indices must be integers or None or have an __index__ method"
  | .noItem container => s!"{container} index out of range"
  | .noElements kind => s!"'{kind}' object is not iterable"
  | .shortEntry => "dictionary update sequence element #0 has length 1; 2 is required"
  | .noEntry => "cannot convert dictionary update sequence element #0 to a sequence"
  | .noKey key => s!"'{key}'"
  | .noField kind name => s!"'{kind}' object has no attribute '{name}'"
  | .foreignField kind name => s!"\"{kind}\" object has no field \"{name}\""

end Fault

end Gltf
