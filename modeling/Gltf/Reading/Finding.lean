import Gltf.Json.Coercion

/-!
What is found wrong while a record is read. A finding has a place in the document, the extensions
that lie on the way there, and a problem; the problem decides whether it is an error or a warning.
-/

namespace Gltf

inductive Severity where
  | error
  | warning
deriving DecidableEq, Repr

/-- A step from a JSON value to one inside it. -/
inductive Step where
  | key (name : String)
  | index (i : Nat)
deriving DecidableEq, Repr

/-- Steps from a place that the caller names. -/
structure Path where
  base : String
  steps : List Step
deriving DecidableEq, Repr

namespace Path

def key (p : Path) (name : String) : Path := { p with steps := p.steps ++ [.key name] }

def index (p : Path) (i : Nat) : Path := { p with steps := p.steps ++ [.index i] }

/-- Keys are joined by points, and an index stands in brackets. -/
def extendText (text : String) : Step → String
  | .key name => if text.isEmpty then name else text ++ "." ++ name
  | .index i => text ++ "[" ++ toString i ++ "]"

def text (p : Path) : String := p.steps.foldl extendText p.base

end Path

/-- What a value should have been. -/
inductive Wanted where
  | objectOf (type : String)
  | object
  | array
  | bool
  | string
  | number
deriving DecidableEq, Repr

def Wanted.text : Wanted → String
  | .objectOf type => s!"an object for {type}"
  | .object => "an object"
  | .array => "an array"
  | .bool => "a bool"
  | .string => "a string"
  | .number => "a number"

inductive Problem where
  | wrongKind (wanted : Wanted) (found : Json.Kind)
  | missing
  | outOfRange (n : Number) (kind : NumberKind)
  | noIntMember (n : Number) (enum : String)
  | noStringMember (s : String) (enum : String)
  | noChoice (found : Json.Kind) (choice : String)
  | unreadable (form : String)
  | readerFailed (text : String)
  | reportedError (text : String)
  | reportedWarning (text : String)
deriving DecidableEq, Repr

namespace Problem

def severity : Problem → Severity
  | .outOfRange _ _ | .noIntMember _ _ | .noStringMember _ _ | .reportedWarning _ => .warning
  | _ => .error

def text : Problem → String
  | .wrongKind wanted found => s!"expected {wanted.text}, got {found.name}"
  | .missing => "missing required property"
  | .outOfRange n kind =>
      s!"value {n.text} has a fractional component or is out of range for {kind.label}"
  | .noIntMember n enum => s!"{n.text} is not a valid {enum}"
  | .noStringMember s enum => s!"'{s}' is not a valid {enum}"
  | .noChoice found choice => s!"{found.name} matches none of {choice}"
  | .unreadable form => s!"no property reader for {form}"
  | .readerFailed text => s!"extension reader failed: {text}"
  | .reportedError text => text
  | .reportedWarning text => text

end Problem

structure Finding where
  /-- The typed extensions on the way, outermost first. -/
  scope : List String
  path : Path
  problem : Problem
deriving DecidableEq, Repr

namespace Finding

def ofPath (path : Path) (problem : Problem) : Finding := ⟨[], path, problem⟩

def within (extension : String) (f : Finding) : Finding :=
  { f with scope := extension :: f.scope }

def severity (f : Finding) : Severity := f.problem.severity

def message (f : Finding) : String :=
  let place := if f.path.text.isEmpty then "<root>" else f.path.text
  f.scope.foldr (fun extension text => s!"[{extension}] {text}") s!"{place}: {f.problem.text}"

end Finding

end Gltf
