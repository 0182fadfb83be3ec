import Gltf.Text.Quoted
import Gltf.Text.Split

/-!
What may stand as the host of a URI. A host between brackets is an address of version 6 or of a
version to come; no host has characters that stand for delimiters.
-/

namespace Gltf.Host

inductive Problem where
  | brackets
  | futureVersion
  | version4
  | notAddress (text : String)
  | delimiters (host : String)
deriving DecidableEq, Repr

def Problem.message : Problem → String
  | .brackets => "Invalid IPv6 URL"
  | .futureVersion => "IPvFuture address is invalid"
  | .version4 => "An IPv4 address cannot be in brackets"
  | .notAddress text => s!"{Text.quoted text} does not appear to be an IPv4 or IPv6 address"
  | .delimiters host => s!"netloc '{host}' contains invalid characters under NFKC normalization"

/-! Addresses -/

/-- A number below 256 without leading zeros. -/
def isOctet (cs : List Char) : Bool :=
  cs.all Char.isDigit && (String.ofList cs).toNat?.any (· < 256) && cs.length ≤ 3 &&
    (cs.head? != some '0' || cs == ['0'])

def isVersion4 (cs : List Char) : Bool :=
  let parts := Text.splitOn '.' cs
  parts.length == 4 && parts.all isOctet

def isHexDigit (c : Char) : Bool :=
  c.isDigit || ('a' ≤ c && c ≤ 'f') || ('A' ≤ c && c ≤ 'F')

/-- Sixteen bits of an address. -/
def isGroup (cs : List Char) : Bool := !cs.isEmpty && cs.length ≤ 4 && cs.all isHexDigit

/-- How many groups a list of them makes, if it is one. An address of version 4 at the end makes
two. -/
def groupCount? (last : Bool) : List (List Char) → Option Nat
  | [] => some 0
  | [part] =>
      if isGroup part then some 1
      else if last && isVersion4 part then some 2
      else none
  | part :: parts => if isGroup part then (groupCount? last parts).map (· + 1) else none

/-- The parts between colons; nothing has none. -/
def partsOf (cs : List Char) : List (List Char) := if cs = [] then [] else Text.splitOn ':' cs

/-- The texts before and after the first two colons in a row. -/
def cutGap : List Char → Option (List Char × List Char)
  | [] => none
  | ':' :: ':' :: after => some ([], after)
  | c :: cs => (cutGap cs).map fun (before, after) => (c :: before, after)

/-- Eight groups, or fewer around a gap. -/
def isGroups (cs : List Char) : Bool :=
  match cutGap cs with
  | none => groupCount? true (partsOf cs) == some 8
  | some (before, after) =>
      match groupCount? false (partsOf before), groupCount? true (partsOf after) with
      | some high, some low => high + low ≤ 7
      | _, _ => false

/-- An address may name its zone behind a percent sign. -/
def isVersion6 (cs : List Char) : Bool :=
  match Text.cut '%' cs with
  | none => isGroups cs
  | some (address, zone) => isGroups address && !zone.isEmpty && !zone.contains '%'

/-- The version in hexadecimal, and whatever belongs to it. -/
def isFutureVersion : List Char → Bool
  | 'v' :: cs =>
      let version := cs.takeWhile isHexDigit
      match cs.dropWhile isHexDigit with
      | '.' :: rest => !version.isEmpty && !rest.isEmpty
      | _ => false
  | _ => false

def addressProblem? (cs : List Char) : Option Problem :=
  if cs.head? = some 'v' then
    if isFutureVersion cs then none else some .futureVersion
  else if isVersion4 cs then some .version4
  else if isVersion6 cs then none
  else some (.notAddress (String.ofList cs))

/-! Hosts -/

/-- The text behind the last at sign, which ends the name of a user. -/
def withoutUser (cs : List Char) : List Char := ((Text.splitOn '@' cs).getLast?).getD cs

/-- Nothing may stand before the brackets, and only a port behind them. -/
def bracketProblem? (cs : List Char) : Option Problem :=
  match Text.cut '[' cs with
  | none => addressProblem? (cs.takeWhile (· ≠ ':'))
  | some (before, rest) =>
      let (address, port) := (Text.cut ']' rest).getD (rest, [])
      if before ≠ [] ∨ (port ≠ [] ∧ port.head? ≠ some ':') then some .brackets
      else addressProblem? address

/-- The characters that are equivalent to texts with a slash, a question mark, a number sign, an at
sign or a colon. -/
def delimiterForms : List Char :=
  ['\u2047', '\u2048', '\u2049', '\u2100', '\u2101', '\u2105', '\u2106', '\u2a74', '\ufe13',
    '\ufe16', '\ufe55', '\ufe56', '\ufe5f', '\ufe6b', '\uff03', '\uff0f', '\uff1a', '\uff1f',
    '\uff20']

def problem? (cs : List Char) : Option Problem :=
  let brackets :=
    match cs.contains '[', cs.contains ']' with
    | true, true => bracketProblem? (withoutUser cs)
    | false, false => none
    | _, _ => some .brackets
  match brackets with
  | some problem => some problem
  | none => if cs.any delimiterForms.contains then some (.delimiters (String.ofList cs)) else none

example : problem? "[fe80::1%eth0]:80".toList = none := by decide +kernel
example : problem? "[1:2:3:4:5:6:7::8]".toList = some (.notAddress "1:2:3:4:5:6:7::8") := by
  decide +kernel

end Gltf.Host
