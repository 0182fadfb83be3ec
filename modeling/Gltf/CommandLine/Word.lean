import Gltf.CommandLine.Usage
import Gltf.Text.Digit
import Gltf.Text.Split

/-!
What the words of a command line are: settings, perhaps with a value behind an equals sign, or
positional words. The long name of a setting may be cut short as long as only one begins that way. A
word of two dashes makes all words after it positional.
-/

namespace Gltf.CommandLine

inductive Word where
  | positional (text : String)
  | separator
  | setting (s : Setting) (value : Option String)
  | unknown (text : String)
deriving DecidableEq, Repr

def separatorText : String := "--"

/-- Whether what follows a dash makes a negative number; a line break at the end does not count. -/
def isNumeral (cs : List Char) : Bool :=
  let body := if cs.getLast? = some '\n' then cs.dropLast else cs
  match body.dropWhile Text.isDecimalDigit with
  | [] => !body.isEmpty
  | '.' :: fraction => !fraction.isEmpty && fraction.all Text.isDecimalDigit
  | _ => false

/-- The value that letters joined to a one-letter flag give to it. Letters that repeat the flag are
none. -/
def joinedValue (flag : Char) : List Char → Option (List Char)
  | [] => none
  | c :: rest => if c = flag then joinedValue flag rest else some (c :: rest)

/-- The text before the first equals sign, and the one behind it. -/
def splitValue (cs : List Char) : List Char × Option (List Char) :=
  match Text.cut '=' cs with
  | some (name, value) => (name, some value)
  | none => (cs, none)

/-- The value behind an equals sign. To a one-letter flag it is as if it were joined, unless it is
empty. -/
def assignedValue (name value : List Char) : Option (List Char) :=
  match name, value with
  | ['-', flag], c :: rest => joinedValue flag (c :: rest)
  | _, value => some value

/-- A name with the setting it belongs to. -/
def namesOf (settings : List Setting) : List (List Char × Setting) :=
  settings.flatMap fun s => s.names.map fun name => (name.toList, s)

/-- The names that a word with two dashes cuts short. -/
def longCandidates (names : List (List Char × Setting)) (cs : List Char) :
    List (List Char × Setting × Option (List Char)) :=
  let (stem, value) := splitValue cs
  (names.filter fun n => stem.isPrefixOf n.1).map fun (name, s) => (name, s, value)

/-- The names that a word with one dash begins with or cuts short. -/
def shortCandidates (names : List (List Char × Setting)) (flag : Char) (joined : List Char) :
    List (List Char × Setting × Option (List Char)) :=
  names.filterMap fun (name, s) =>
    if name = ['-', flag] then some (name, s, joinedValue flag joined)
    else if ('-' :: flag :: joined).isPrefixOf name then some (name, s, none)
    else none

/-- A word with a dash that is no full name. -/
def guess (names : List (List Char × Setting)) (flag : Char) (joined : List Char) :
    Except UsageError Word :=
  let cs := '-' :: flag :: joined
  let candidates :=
    if flag = '-' then longCandidates names cs else shortCandidates names flag joined
  match candidates with
  | [(_, s, value)] => .ok (.setting s (value.map String.ofList))
  | [] =>
      if isNumeral (flag :: joined) || cs.contains ' ' then .ok (.positional (String.ofList cs))
      else .ok (.unknown (String.ofList cs))
  | _ => .error (.ambiguous (String.ofList cs) (candidates.map fun c => String.ofList c.1))

def classify (settings : List Setting) (text : String) : Except UsageError Word :=
  let names := namesOf settings
  match text.toList with
  | '-' :: flag :: joined =>
      let (name, value) := splitValue ('-' :: flag :: joined)
      match names.lookup text.toList, names.lookup name with
      | some s, _ => .ok (.setting s none)
      | none, some s => .ok (.setting s ((value.bind (assignedValue name)).map String.ofList))
      | none, none => guess names flag joined
  | _ => .ok (.positional text)

/-- Words with the texts they are written as. -/
def classifyAll (settings : List Setting) : List String → Except UsageError (List (Word × String))
  | [] => .ok []
  | text :: texts =>
      if text = separatorText then
        .ok ((.separator, text) :: texts.map fun text => (.positional text, text))
      else do
        let word ← classify settings text
        let words ← classifyAll settings texts
        .ok ((word, text) :: words)

end Gltf.CommandLine
