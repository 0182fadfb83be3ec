import Gltf.Options
import Gltf.Text.Quoted

/-!
The commands, their options, and what can be wrong with the way they are used.
-/

namespace Gltf.CommandLine

def programName : String := "gltfread"

def programVersion : String := "0.1.0"

inductive Command where
  | inspect
  | mips
deriving DecidableEq, Repr

def Command.name : Command → String
  | .inspect => "inspect"
  | .mips => "mips"

def Command.all : List Command := [.inspect, .mips]

def Command.ofName? (name : String) : Option Command := Command.all.find? (·.name == name)

inductive Setting where
  | help
  | version
  | quiet
  | verbose
  | json
  | dropUnknown
  | extensionState
  | skipImages
deriving DecidableEq, Repr

namespace Setting

/-- The ways to write a setting. -/
def names : Setting → List String
  | .help => ["-h", "--help"]
  | .version => ["--version"]
  | .quiet => ["--quiet"]
  | .verbose => ["--verbose"]
  | .json => ["--json"]
  | .dropUnknown => ["--no-capture-unknown"]
  | .extensionState => ["--extension-state"]
  | .skipImages => ["--no-images"]

def label (s : Setting) : String := "/".intercalate s.names

/-- The settings before a command. -/
def general : List Setting := [.help, .version]

end Setting

/-- The settings after a command. -/
def Command.settings : Command → List Setting
  | .inspect => [.help, .quiet, .verbose, .json, .dropUnknown, .extensionState, .skipImages]
  | .mips => [.help, .quiet, .verbose, .json]

inductive UsageError where
  | ambiguous (word : String) (candidates : List String)
  | unusedValue (setting : Setting) (value : String)
  | missingValue (setting : Setting)
  | notAssignment (text : String)
  | unknownState (text : String)
  | unknownCommand (word : String)
  | missingPath
  | unrecognized (words : List String)
deriving DecidableEq, Repr

def commaSeparated (words : List String) : String := ", ".intercalate words

def settingText (s : Setting) (text : String) : String := s!"argument {s.label}: {text}"

def UsageError.message : UsageError → String
  | .ambiguous word candidates =>
      s!"ambiguous option: {word} could match {commaSeparated candidates}"
  | .unusedValue s value => settingText s s!"ignored explicit argument {Text.quoted value}"
  | .missingValue s => settingText s "expected one argument"
  | .notAssignment text => settingText .extensionState s!"expected NAME=STATE, got '{text}'"
  | .unknownState text =>
      let states := commaSeparated (ExtensionState.all.map ExtensionState.name)
      settingText .extensionState s!"unknown extension state '{text}' (choose from {states})"
  | .unknownCommand word =>
      let commands := commaSeparated (Command.all.map fun c => Text.quoted c.name)
      s!"argument command: invalid choice: {Text.quoted word} (choose from {commands})"
  | .missingPath => "the following arguments are required: path"
  | .unrecognized words => "unrecognized arguments: " ++ " ".intercalate words

/-- The lines of a text, each ended. -/
def unlines (lines : List String) : String := String.join (lines.map (· ++ "\n"))

def overview : String := unlines [
  "usage: gltfread [-h] [--version] \x7binspect,mips\x7d ...",
  "",
  "gltfread: typed glTF 2.0 / GLB reader",
  "",
  "positional arguments:",
  "  \x7binspect,mips\x7d  Available commands",
  "    inspect       Read a .gltf or .glb file and summarize the result",
  "    mips          Print the mip layout of a KTX2 file",
  "",
  "options:",
  "  -h, --help      show this help message and exit",
  "  --version       show program's version number and exit"]

def Command.help : Command → String
  | .inspect => unlines [
      "usage: gltfread inspect [-h] [--quiet] [--verbose] [--json]",
      "                        [--no-capture-unknown] [--extension-state NAME=STATE]",
      "                        [--no-images]",
      "                        path",
      "",
      "positional arguments:",
      "  path                  Path to a .gltf or .glb file",
      "",
      "options:",
      "  -h, --help            show this help message and exit",
      "  --quiet               Suppress all non-error output.",
      "  --verbose             Log reader progress to stderr.",
      "  --json                Print a machine-readable JSON summary.",
      "  --no-capture-unknown  Discard properties the typed model does not know",
      "  --extension-state NAME=STATE",
      "                        Force an extension to typed, generic_capture or",
      "                        disabled (repeatable)",
      "  --no-images           Do not decode embedded images"]
  | .mips => unlines [
      "usage: gltfread mips [-h] [--quiet] [--verbose] [--json] path",
      "",
      "positional arguments:",
      "  path        Path to a .ktx2 file",
      "",
      "options:",
      "  -h, --help  show this help message and exit",
      "  --quiet     Suppress all non-error output.",
      "  --verbose   Log reader progress to stderr.",
      "  --json      Print a machine-readable JSON summary."]

end Gltf.CommandLine
