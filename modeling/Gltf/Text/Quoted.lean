import Gltf.Text.Case
import Gltf.Text.Hex
import Gltf.Text.PrintableTable

/-!
Texts and bytes in quotes, for messages about arguments, file names and values. Single quotes are
used unless the text holds one and no double quote; backslashes, the quote itself and what cannot be
printed are escaped.
-/

namespace Gltf.Text

def isPrintable (c : Char) : Bool := !inRanges unprintableRanges c

def quoteChar (quote c : Char) : List Char :=
  let n := c.toNat
  if c = quote ∨ c = '\\' then ['\\', c]
  else if c = '\t' then ['\\', 't']
  else if c = '\n' then ['\\', 'n']
  else if c = '\r' then ['\\', 'r']
  else if isPrintable c then [c]
  else if n < 0x100 then '\\' :: 'x' :: hexDigits 2 n
  else if n < 0x10000 then '\\' :: 'u' :: hexDigits 4 n
  else '\\' :: 'U' :: hexDigits 8 n

/-- The mark around a text. -/
def quoteMark (cs : List Char) : Char := if cs.contains '\'' && !cs.contains '"' then '"' else '\''

def quote (cs : List Char) : List Char :=
  let mark := quoteMark cs
  mark :: cs.flatMap (quoteChar mark) ++ [mark]

def quoted (s : String) : String := String.ofList (quote s.toList)

def quoteByte (mark : Char) (b : UInt8) : List Char :=
  if b < 0x80 then quoteChar mark (Char.ofNat b.toNat) else '\\' :: 'x' :: hexDigits 2 b.toNat

/-- Bytes in quotes after a letter. Those that are not ASCII are escaped. -/
def quotedBytes (bs : List UInt8) : String :=
  let mark := quoteMark (bs.map fun b => Char.ofNat b.toNat)
  String.ofList ('b' :: mark :: bs.flatMap (quoteByte mark) ++ [mark])

example : quote "it's".toList = "\"it's\"".toList := by decide +kernel
example : quote "a\"'\\\n\x07\u200bé".toList = "'a\"\\'\\\\\\n\\x07\\u200bé'".toList := by
  decide +kernel

end Gltf.Text
