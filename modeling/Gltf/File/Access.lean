import Gltf.Bytes
import Gltf.File.Path

/-!
Access to files, in a monad of the caller's choice, and a tree of files in memory that can be read
the same way.
-/

namespace Gltf.File

/-- Why a file cannot be read. -/
inductive Fault where
  | notFound
  | notDirectory
  | isDirectory
  | nameTooLong
  | other (code : Nat) (text : String)
deriving DecidableEq, Repr

namespace Fault

/-- The number of a fault among the errors of the system. -/
def code : Fault → Nat
  | .notFound => 2
  | .notDirectory => 20
  | .isDirectory => 21
  | .nameTooLong => 36
  | .other code _ => code

def text : Fault → String
  | .notFound => "No such file or directory"
  | .notDirectory => "Not a directory"
  | .isDirectory => "Is a directory"
  | .nameTooLong => "File name too long"
  | .other _ text => text

end Fault

/-- A file system to read from, and the location that relative paths start from. -/
structure Access (m : Type → Type) where
  workingDirectory : Location
  read : Path → m (Except Fault Bytes)

/-- Files in memory with their locations, and directories that may be empty. -/
structure Tree where
  directories : List Location
  files : List (Location × Bytes)

namespace Tree

def file? (t : Tree) (l : Location) : Option Bytes := t.files.lookup l

def isDirectory (t : Tree) (l : Location) : Bool :=
  t.directories.any l.isPrefixOf || t.files.any fun f => l.isPrefixOf f.1.dropLast

/-- The greatest number of bytes in a name. -/
def nameLimit : Nat := 255

/-- Follows parts from a directory, part by part. -/
def follow (t : Tree) (directory : Location) : List String → Except Fault Bytes
  | [] => .error .isDirectory
  | part :: parts =>
      let next := directory.step part
      if nameLimit < part.utf8ByteSize then .error .nameTooLong
      else if t.isDirectory next then follow t next parts
      else
        match t.file? next, parts with
        | some content, [] => .ok content
        | some _, _ => .error .notDirectory
        | none, _ => .error .notFound

/-- The least number of bytes of a path that is too long. -/
def pathLimit : Nat := 4096

/-- The tree as a file system. -/
def access (t : Tree) (workingDirectory : Location) : Access Id where
  workingDirectory
  read p :=
    if pathLimit ≤ p.text.utf8ByteSize then .error .nameTooLong
    else follow t (if p.root = "" then workingDirectory else []) p.parts

end Tree

end Gltf.File
