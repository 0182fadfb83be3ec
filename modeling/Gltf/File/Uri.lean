import Gltf.Text.Split

/-!
URIs taken apart: scheme, host and path; a query and a fragment are passed over. Blanks and controls
before a URI do not count, nor do tabs and line breaks within.
-/

namespace Gltf

structure Uri where
  /-- In lower case; empty if there is none. -/
  scheme : List Char
  host : List Char
  path : List Char
deriving DecidableEq, Repr

namespace Uri

def isLineBreakOrTab (c : Char) : Bool := c == '\t' || c == '\n' || c == '\r'

def clean (cs : List Char) : List Char :=
  (cs.dropWhile (·.toNat ≤ 0x20)).filter (!isLineBreakOrTab ·)

def isSchemeChar (c : Char) : Bool := c.isAlphanum || c == '+' || c == '-' || c == '.'

/-- A scheme begins with a letter. -/
def isScheme (cs : List Char) : Bool := cs.head?.any Char.isAlpha && cs.all isSchemeChar

/-- The scheme and what follows it. -/
def splitScheme (cs : List Char) : List Char × List Char :=
  match Text.cut ':' cs with
  | some (scheme, rest) => if isScheme scheme then (scheme.map Char.toLower, rest) else ([], cs)
  | none => ([], cs)

def endsHost (c : Char) : Bool := c == '/' || c == '?' || c == '#'

/-- The host, which two slashes introduce, and what follows it. -/
def splitHost : List Char → List Char × List Char
  | '/' :: '/' :: rest => (rest.takeWhile (!endsHost ·), rest.dropWhile (!endsHost ·))
  | rest => ([], rest)

def ofText (s : String) : Uri :=
  let (scheme, rest) := splitScheme (clean s.toList)
  let (host, rest) := splitHost rest
  ⟨scheme, host, rest.takeWhile fun c => c ≠ '?' ∧ c ≠ '#'⟩

example : ofText " HTTP://Host/a%20b?q#f" = ⟨"http".toList, "Host".toList, "/a%20b".toList⟩ := by
  decide +kernel

end Uri

end Gltf
