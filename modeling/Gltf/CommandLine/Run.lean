import Gltf.CommandLine.Report
import Gltf.File.Loader

/-!
Running a command line. All that is read comes through a given file system, in a monad of the
caller's choice.
-/

namespace Gltf.CommandLine

/-- What keeps a command from ending in any status. -/
inductive RunFault where
  | reading (fault : ReadFault)
  | nullCharacter
deriving DecidableEq, Repr

def RunFault.message : RunFault → String
  | .reading fault => fault.message
  | .nullCharacter => File.LoadProblem.nullCharacter.message

/-- A message that ends a run. -/
def failure (text : String) : Outcome where
  status := 1
  messages := unlines [s!"Error: {text}"]

def faultText (path : File.Path) (fault : File.Fault) : String :=
  s!"[Errno {fault.code}] {fault.text}: {Text.quoted path.text}"

variable {m : Type → Type} [Monad m]

/-- Reads a document; its resources are looked for in its own directory. -/
def inspect (files : File.Access m) (path : File.Path) (flags : Flags) (content : Bytes) :
    m (Except RunFault Outcome) := do
  let base := files.workingDirectory.resolve path.parent
  let options := flags.states.foldl (fun o (name, state) => o.setState name state none)
    { captureUnknown := flags.captureUnknown : Options }
  let collaborators := { loader := some (File.loader files base) : Collaborators m }
  let result ← read collaborators options { decodeImages := flags.decodeImages } content
  pure ((result.map (inspectOutcome path flags)).mapError .reading)

def mips (path : File.Path) (flags : Flags) (content : Bytes) : Outcome :=
  match Ktx2.layout content {} with
  | .ok l => mipsOutcome path flags l
  | .error problem => failure problem.message

def runCommand (files : File.Access m) (command : Command) (path : File.Path) (flags : Flags) :
    m (Except RunFault Outcome) := do
  if path.text.toList.contains '\x00' then pure (.error .nullCharacter)
  else
    match ← files.read path, command with
    | .error fault, _ => pure (.ok (failure (faultText path fault)))
    | .ok content, .inspect => inspect files path flags content
    | .ok content, .mips => pure (.ok (mips path flags content))

/-- Runs a command line. A wrong one has status 2, and says in its last line what is wrong. -/
def run (files : File.Access m) (arguments : List String) : m (Except RunFault Outcome) :=
  match Request.ofArguments arguments with
  | .error error => pure (.ok { status := 2, messages := unlines [s!"error: {error.message}"] })
  | .ok (.overview asked) => pure (.ok { status := if asked then 0 else 1, output := overview })
  | .ok (.help command) => pure (.ok { status := 0, output := command.help })
  | .ok .version =>
      pure (.ok { status := 0, output := unlines [s!"{programName} {programVersion}"] })
  | .ok (.run command path flags) => runCommand files command (.ofText path) flags

end Gltf.CommandLine
