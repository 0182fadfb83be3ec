import Gltf.Glb
import Gltf.Json.Parser
import Gltf.Reading.Finding
import Gltf.Resource.Draco
import Gltf.Resource.Images
import Gltf.Resource.Meshopt

/-!
What there is to say about a file that has been read: why it is no document at all, or what was found
in each stage of reading, with the element that it concerns.
-/

namespace Gltf

/-- Why a file holds no document. -/
inductive Unreadable where
  | container (problem : Glb.Problem)
  | json (error : Json.ParseError)
  | root (found : Json.Kind)
deriving DecidableEq, Repr

def Unreadable.message : Unreadable → String
  | .container problem => problem.message
  | .json error => s!"glTF JSON could not be parsed: {error.message}"
  | .root found => s!"glTF JSON root must be an object, got {found.name}"

/-- What there is to report; `ι` is the type of indices in compressed resources. -/
inductive Diagnostic (ι : Type := Int) where
  | container (warning : Glb.Warning)
  | reading (finding : Finding)
  | binary (problem : BinaryProblem)
  | buffer (i : Nat) (problem : BufferProblem)
  | bufferView (i : Nat) (problem : Meshopt.Problem ι)
  | primitive (place : Draco.Location) (problem : Draco.Problem ι)
  | image (i : Nat) (problem : ImageProblem)
deriving DecidableEq, Repr

namespace Diagnostic

variable {ι : Type}

/-- Compressed content without a decoder for it is no error: the document may come with a fallback
that is not compressed. -/
def severity : Diagnostic ι → Severity
  | .container _ => .warning
  | .reading finding => finding.severity
  | .bufferView _ .noDecoder => .warning
  | .primitive _ .noDecoder => .warning
  | _ => .error

def bufferText (place : String) : BufferProblem → String
  | .uri problem => s!"{place}.uri: {problem.message}"
  | .tooShort found declared => s!"{place}: resolved {found} bytes but byteLength is {declared}"

def imageText (place : String) : ImageProblem → String
  | .mediaType name => s!"{place}: unsupported image MIME type '{name}'"
  | .bufferView problem => s!"{place}.bufferView: {problem.message}"
  | .uri problem => s!"{place}.uri: {problem.message}"
  | .payload problem => s!"{place}: {problem.message}"

def message [ToString ι] : Diagnostic ι → String
  | .container warning => warning.message
  | .reading finding => finding.message
  | .binary problem => problem.message
  | .buffer i problem => bufferText s!"buffers[{i}]" problem
  | .bufferView i problem => s!"bufferViews[{i}]: {problem.message}"
  | .primitive place problem =>
      s!"meshes[{place.mesh}].primitives[{place.primitive}]: {problem.message}"
  | .image i problem => imageText s!"images[{i}]" problem

end Diagnostic

/-- The messages of one severity, in order. -/
def messages {ι : Type} [ToString ι] (severity : Severity) (diagnostics : List (Diagnostic ι)) :
    List String :=
  (diagnostics.filter (·.severity = severity)).map Diagnostic.message

end Gltf
