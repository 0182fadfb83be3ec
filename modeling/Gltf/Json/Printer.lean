import Gltf.Json
import Gltf.Text.Hex

/-!
JSON text. The compact form writes characters as they are and escapes only what must be; the
indented form, made for reading, is ASCII.
-/

namespace Gltf.Json

/-- The layout of numbers in documents; JSON has no text for the infinities and NaN, so they are
written as words. -/
def numberLayout : Binary64.Layout :=
  { Number.layout with infinity := "Infinity".toList, nan := ['N', 'a', 'N'] }

def unicodeEscape (n : Nat) : List Char := '\\' :: 'u' :: Text.hexDigits 4 n

/-- The short escapes, of characters that no string may hold as they are. -/
def shortEscape? (c : Char) : Option Char :=
  if c = '"' then some '"'
  else if c = '\\' then some '\\'
  else if c = '\n' then some 'n'
  else if c = '\r' then some 'r'
  else if c = '\t' then some 't'
  else if c = '\x08' then some 'b'
  else if c = '\x0c' then some 'f'
  else none

def escapeChar (c : Char) : List Char :=
  match shortEscape? c with
  | some e => ['\\', e]
  | none => if c.toNat < 0x20 then unicodeEscape c.toNat else [c]

/-- As `escapeChar`, with everything but printable ASCII escaped, beyond the basic plane as a
surrogate pair. -/
def escapeCharAscii (c : Char) : List Char :=
  let n := c.toNat
  if n < 0x7f then escapeChar c
  else if n < 0x10000 then unicodeEscape n
  else unicodeEscape (0xd800 + (n - 0x10000) / 0x400) ++
    unicodeEscape (0xdc00 + (n - 0x10000) % 0x400)

def quote (escape : Char → List Char) (s : String) : List Char :=
  '"' :: s.toList.flatMap escape ++ ['"']

def scalarText (escape : Char → List Char) : Json → List Char
  | .bool true => ['t', 'r', 'u', 'e']
  | .bool false => ['f', 'a', 'l', 's', 'e']
  | .number n => n.textWith numberLayout
  | .string s => quote escape s
  | _ => ['n', 'u', 'l', 'l']

mutual

/-- The text without blanks. -/
def compact : Json → List Char
  | .array items => '[' :: compactItems items ++ [']']
  | .object members => '{' :: compactMembers members ++ ['}']
  | scalar => scalarText escapeChar scalar
termination_by structural value => value

def compactItems : List Json → List Char
  | [] => []
  | [item] => item.compact
  | item :: items => item.compact ++ ',' :: compactItems items
termination_by structural items => items

def compactMembers : List (String × Json) → List Char
  | [] => []
  | [(key, value)] => quote escapeChar key ++ ':' :: value.compact
  | (key, value) :: members =>
      quote escapeChar key ++ ':' :: value.compact ++ ',' :: compactMembers members
termination_by structural members => members

end

def newline (depth : Nat) : List Char := '\n' :: List.replicate (2 * depth) ' '

mutual

/-- The text with each item and member on a line of its own, two blanks further in per level. -/
def indented (depth : Nat) : Json → List Char
  | .array [] => ['[', ']']
  | .array items => '[' :: indentedItems (depth + 1) items ++ newline depth ++ [']']
  | .object [] => ['{', '}']
  | .object members => '{' :: indentedMembers (depth + 1) members ++ newline depth ++ ['}']
  | scalar => scalarText escapeCharAscii scalar
termination_by structural value => value

def indentedItems (depth : Nat) : List Json → List Char
  | [] => []
  | [item] => newline depth ++ item.indented depth
  | item :: items => newline depth ++ item.indented depth ++ ',' :: indentedItems depth items
termination_by structural items => items

def indentedMembers (depth : Nat) : List (String × Json) → List Char
  | [] => []
  | [(key, value)] =>
      newline depth ++ quote escapeCharAscii key ++ ':' :: ' ' :: value.indented depth
  | (key, value) :: members =>
      newline depth ++ quote escapeCharAscii key ++ ':' :: ' ' :: value.indented depth ++
        ',' :: indentedMembers depth members
termination_by structural members => members

end

/-- Inserts a member before the first with a greater key. -/
def insertMember (key : String) (value : Json) : List (String × Json) → List (String × Json)
  | [] => [(key, value)]
  | (k, v) :: members =>
      if key < k then (key, value) :: (k, v) :: members
      else (k, v) :: insertMember key value members

mutual

/-- The value with the members of all its objects in the order of their keys. -/
def sorted : Json → Json
  | .array items => .array (sortedItems items)
  | .object members => .object (sortedMembers members)
  | scalar => scalar
termination_by structural value => value

def sortedItems : List Json → List Json
  | [] => []
  | item :: items => item.sorted :: sortedItems items
termination_by structural items => items

def sortedMembers : List (String × Json) → List (String × Json)
  | [] => []
  | (key, value) :: members => insertMember key value.sorted (sortedMembers members)
termination_by structural members => members

end

end Gltf.Json
