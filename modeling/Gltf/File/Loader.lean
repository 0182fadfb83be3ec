import Gltf.File.Access
import Gltf.File.Host
import Gltf.File.Uri
import Gltf.Resource.Buffers
import Gltf.Text.Percent

/-!
Loading resources from files at or below a base directory. `resolve` decides by the text of a URI
alone which location it means, and refuses any other scheme and any location elsewhere.
-/

namespace Gltf.File

inductive LoadProblem where
  | host (problem : Host.Problem)
  | nullCharacter
  | otherScheme (uri scheme : String)
  | outside (uri : String) (base : Location)
  | unreadable (uri : String) (fault : Fault)
deriving DecidableEq, Repr

def LoadProblem.message : LoadProblem → String
  | .host problem => problem.message
  | .nullCharacter => "embedded null byte"
  | .otherScheme uri scheme => s!"Cannot load '{uri}': unsupported URI scheme '{scheme}'"
  | .outside uri base => s!"Cannot load '{uri}': resolves outside {base.text}"
  | .unreadable uri fault => s!"Cannot load '{uri}': {fault.text}"

def fileScheme : List Char := ['f', 'i', 'l', 'e']

/-- The location that a URI means. -/
def resolve (base : Location) (text : String) : Except LoadProblem Location :=
  let uri := Uri.ofText text
  let path := Percent.decodeText uri.path
  let place := base.resolve (Path.ofText (String.ofList path))
  match Host.problem? uri.host with
  | some problem => .error (.host problem)
  | none =>
      if uri.scheme ≠ [] ∧ uri.scheme ≠ fileScheme then
        .error (.otherScheme text (String.ofList uri.scheme))
      else if path.contains '\x00' then .error .nullCharacter
      else if base.contains place then .ok place
      else .error (.outside text base)

variable {m : Type → Type} [Monad m]

def load (files : Access m) (base : Location) (uri : String) : m (Except LoadProblem Bytes) :=
  match resolve base uri with
  | .error problem => pure (.error problem)
  | .ok place => do
      match ← files.read (.ofLocation place) with
      | .ok content => pure (.ok content)
      | .error fault => pure (.error (.unreadable uri fault))

def loader (files : Access m) (base : Location) : Loader m := fun uri => do
  pure ((← load files base uri).mapError LoadProblem.message)

end Gltf.File
