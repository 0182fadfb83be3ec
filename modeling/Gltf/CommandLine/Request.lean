import Gltf.CommandLine.Word
import Gltf.Text.Blank

/-!
What a command line asks for. General settings come first, then the command; what follows is for the
command alone. Words that nobody knows are refused in the end, after all that is wrong with the
others.
-/

namespace Gltf.CommandLine

structure Flags where
  quiet : Bool := false
  verbose : Bool := false
  json : Bool := false
  captureUnknown : Bool := true
  decodeImages : Bool := true
  states : List (String × ExtensionState) := []
deriving DecidableEq, Repr

def Flags.add (f : Flags) : Setting → Flags
  | .quiet => { f with quiet := true }
  | .verbose => { f with verbose := true }
  | .json => { f with json := true }
  | .dropUnknown => { f with captureUnknown := false }
  | .skipImages => { f with decodeImages := false }
  | _ => f

inductive Request where
  /-- The overview, because it is asked for or because nothing is. -/
  | overview (asked : Bool)
  | help (command : Command)
  | version
  | run (command : Command) (path : String) (flags : Flags)
deriving DecidableEq, Repr

/-- The extension and the state that an assignment names; the state in any case, between blanks. -/
def parseState (text : String) : Except UsageError (String × ExtensionState) :=
  match Text.cut '=' text.toList with
  | none => .error (.notAssignment text)
  | some (name, state) =>
      if name = [] then .error (.notAssignment text)
      else
        match ExtensionState.ofName? (String.ofList (Text.lower (Text.trim state))) with
        | some s => .ok (String.ofList name, s)
        | none => .error (.unknownState (String.ofList state))

/-- What the words after a command have said so far. -/
structure Draft where
  flags : Flags := {}
  path : Option String := none
  unknown : List String := []

namespace Draft

def addUnknown (d : Draft) (text : String) : Draft := { d with unknown := d.unknown ++ [text] }

def addState (d : Draft) (text : String) : Except UsageError Draft := do
  let state ← parseState text
  .ok { d with flags := { d.flags with states := d.flags.states ++ [state] } }

def finish (d : Draft) (command : Command) : Except UsageError Request :=
  match d.path, d.unknown with
  | none, _ => .error .missingPath
  | some path, [] => .ok (.run command path d.flags)
  | some _, unknown => .error (.unrecognized unknown)

/-- Takes the words after a command. The separator goes unnoticed next to the path, and is unknown
anywhere else. -/
def take (command : Command) (d : Draft) : List Word → Except UsageError Request
  | [] => d.finish command
  | .unknown text :: words => take command (d.addUnknown text) words
  | .positional text :: .separator :: words =>
      if d.path.isNone then take command { d with path := some text } words
      else take command ((d.addUnknown text).addUnknown separatorText) words
  | .positional text :: words =>
      if d.path.isNone then take command { d with path := some text } words
      else take command (d.addUnknown text) words
  | .separator :: .positional text :: words =>
      if d.path.isNone then take command { d with path := some text } words
      else take command ((d.addUnknown separatorText).addUnknown text) words
  | .separator :: words => take command (d.addUnknown separatorText) words
  | .setting .help none :: _ => .ok (.help command)
  | .setting .extensionState (some text) :: words => do take command (← d.addState text) words
  | .setting .extensionState none :: .positional text :: words => do
      take command (← d.addState text) words
  | .setting .extensionState none :: _ => .error (.missingValue .extensionState)
  | .setting s (some value) :: _ => .error (.unusedValue s value)
  | .setting s none :: words => take command { d with flags := d.flags.add s } words

end Draft

/-- Takes the words after the name of a command, given the unknown ones before it. -/
def takeCommand (unknown : List String) (name : String) (texts : List String) :
    Except UsageError Request :=
  match Command.ofName? name with
  | none => .error (.unknownCommand name)
  | some command => do
      let words ← classifyAll command.settings texts
      Draft.take command { unknown } (words.map (·.1))

/-- Takes the words before the command. -/
def takeGeneral (unknown : List String) : List (Word × String) → Except UsageError Request
  | [] => if unknown = [] then .ok (.overview false) else .error (.unrecognized unknown)
  | (.unknown _, text) :: words => takeGeneral (unknown ++ [text]) words
  | (.positional name, _) :: words => takeCommand unknown name (words.map (·.2))
  | (.separator, text) :: (_, _) :: _ => .error (.unknownCommand text)
  | [(.separator, text)] => .error (.unrecognized (unknown ++ [text]))
  | (.setting s (some value), _) :: _ => .error (.unusedValue s value)
  | (.setting .version none, _) :: _ => .ok .version
  | (.setting _ none, _) :: _ => .ok (.overview true)

def Request.ofArguments (arguments : List String) : Except UsageError Request := do
  takeGeneral [] (← classifyAll Setting.general arguments)

end Gltf.CommandLine
