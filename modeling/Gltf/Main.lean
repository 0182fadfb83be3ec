import Gltf.CommandLine.Run

/-!
The command line as a program: the arguments are run on the files of the system, and the texts go to
the two output streams.
-/

namespace Gltf.CommandLine

/-- The number of a system error, which comes negated from some calls. -/
def errorNumber (code : UInt32) : Nat :=
  if code.toNat < 0x80000000 then code.toNat else 0x100000000 - code.toNat

def faultOf : IO.Error → File.Fault
  | .noFileOrDirectory _ _ _ => .notFound
  | .inappropriateType _ code _ =>
      if errorNumber code = File.Fault.isDirectory.code then .isDirectory else .notDirectory
  | .invalidArgument _ code text =>
      if errorNumber code = File.Fault.nameTooLong.code then .nameTooLong
      else .other (errorNumber code) text
  | .permissionDenied _ code text => .other (errorNumber code) text
  | .resourceExhausted _ code text => .other (errorNumber code) text
  | .otherError code text => .other (errorNumber code) text
  | e => .other 5 (toString e)

def readSystemFile (path : File.Path) : IO (Except File.Fault Bytes) := do
  try
    let content ← IO.FS.readBinFile path.text
    pure (.ok content.toList)
  catch e => pure (.error (faultOf e))

def systemFiles : IO (File.Access IO) := do
  let directory ← IO.currentDir
  pure { workingDirectory := File.partsOf directory.toString.toList, read := readSystemFile }

end Gltf.CommandLine

def main (arguments : List String) : IO UInt32 := do
  match ← Gltf.CommandLine.run (← Gltf.CommandLine.systemFiles) arguments with
  | .ok outcome => do
      IO.print outcome.output
      IO.eprint outcome.messages
      pure (UInt32.ofNat outcome.status)
  | .error fault => do
      IO.eprintln s!"Error: {fault.message}"
      pure 1
