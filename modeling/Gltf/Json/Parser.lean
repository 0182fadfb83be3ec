import Gltf.Json
import Gltf.Text.Utf8

/-!
Reading JSON text. Every parser takes the rest of the text and gives back what it leaves of it, and
a problem carries the rest that begins where it lies, so positions are suffixes until the very end,
when the bytes before one are counted. Containers nest up to `nestingLimit`.
-/

namespace Gltf.Json

/-- What is wrong at one place of a text. -/
inductive Fault where
  | expectingValue
  | extraData
  | expectingName
  | expectingComma
  | expectingColon
  | unterminatedString
  | invalidEscape
  | invalidUnicodeEscape
  | controlCharacter
  | byteOrderMark
deriving DecidableEq, Repr

def Fault.message : Fault → String
  | .expectingValue => "Expecting value"
  | .extraData => "Extra data"
  | .expectingName => "Expecting property name enclosed in double quotes"
  | .expectingComma => "Expecting ',' delimiter"
  | .expectingColon => "Expecting ':' delimiter"
  | .unterminatedString => "Unterminated string starting at"
  | .invalidEscape => "Invalid \\escape"
  | .invalidUnicodeEscape => "Invalid \\uXXXX escape"
  | .controlCharacter => "Invalid control character at"
  | .byteOrderMark => "Unexpected UTF-8 BOM (decode using utf-8-sig)"

/-- Why a text is not read: a fault with the rest of the text from its place on, a word for a number
that JSON does not have, nesting past the limit, or an integer with too many digits. -/
inductive Failure where
  | fault (what : Fault) (rest : List Char)
  | constant (name : String)
  | tooDeep
  | integerTooLong
deriving DecidableEq, Repr

def nestingLimit : Nat := 990

/-- The greatest number of digits of an integer. -/
def digitLimit : Nat := 4300

def isSpace (c : Char) : Bool := c == ' ' || c == '\t' || c == '\n' || c == '\r'

def skipSpace (cs : List Char) : List Char := cs.dropWhile isSpace

def isDigit (c : Char) : Bool := '0' ≤ c && c ≤ '9'

def digitsValue (cs : List Char) : Nat := cs.foldl (fun n c => 10 * n + (c.toNat - 48)) 0

def hexDigit? (c : Char) : Option Nat :=
  if isDigit c then some (c.toNat - 48)
  else if 'a' ≤ c ∧ c ≤ 'f' then some (c.toNat - 87)
  else if 'A' ≤ c ∧ c ≤ 'F' then some (c.toNat - 55)
  else none

def hexValue? (a b c d : Char) : Option Nat := do
  some ((((← hexDigit? a) * 16 + (← hexDigit? b)) * 16 + (← hexDigit? c)) * 16 + (← hexDigit? d))

def isHighSurrogate (n : Nat) : Bool := 0xd800 ≤ n && n < 0xdc00

def isLowSurrogate (n : Nat) : Bool := 0xdc00 ≤ n && n < 0xe000

/-- The character of a code unit; a surrogate on its own is none and is replaced. -/
def unitChar (n : Nat) : Char :=
  if isHighSurrogate n || isLowSurrogate n then Utf8.replacement else Char.ofNat n

def pairChar (high low : Nat) : Char :=
  Char.ofNat (0x10000 + (high - 0xd800) * 0x400 + (low - 0xdc00))

def simpleEscape? (c : Char) : Option Char :=
  if c = '"' ∨ c = '\\' ∨ c = '/' then some c
  else if c = 'b' then some '\x08'
  else if c = 'f' then some '\x0c'
  else if c = 'n' then some '\n'
  else if c = 'r' then some '\r'
  else if c = 't' then some '\t'
  else none

/-- The code unit that the first four characters spell, if more text follows them: a string that is
still open has its closing quote to come. -/
def hexUnit? : List Char → Option Nat
  | a :: b :: c :: d :: _ :: _ => hexValue? a b c d
  | _ => none

/-- The code unit after `\u`, given what follows these two characters. -/
def unicodeUnit (rest : List Char) : Except Failure Nat :=
  match hexUnit? rest with
  | some n => .ok n
  | none => .error (.fault .invalidUnicodeEscape ('u' :: rest))

/-- The low surrogate that an escape at the head of a text spells, if any. -/
def lowSurrogate? (rest : List Char) : Except Failure (Option Nat) :=
  match rest with
  | '\\' :: 'u' :: digits =>
      if (digits.drop 4).isEmpty then .ok none
      else do
        let n ← unicodeUnit digits
        .ok (if isLowSurrogate n then some n else none)
  | _ => .ok none

/-- Reads a string behind its opening quote, with the characters so far in reverse; `skip` counts
the characters that belong to an escape already read. -/
def readString (start : List Char) (skip : Nat) (done : List Char) :
    List Char → Except Failure (List Char × List Char)
  | [] => .error (.fault .unterminatedString start)
  | c :: rest =>
      match skip with
      | skip + 1 => readString start skip done rest
      | 0 =>
          if c = '"' then .ok (done.reverse, rest)
          else if c = '\\' then
            match rest.head? with
            | none => .error (.fault .unterminatedString start)
            | some e =>
                if e = 'u' then
                  match unicodeUnit rest.tail with
                  | .error failure => .error failure
                  | .ok n =>
                      if isHighSurrogate n then
                        match lowSurrogate? (rest.drop 5) with
                        | .error failure => .error failure
                        | .ok (some low) => readString start 11 (pairChar n low :: done) rest
                        | .ok none => readString start 5 (unitChar n :: done) rest
                      else readString start 5 (unitChar n :: done) rest
                else
                  match simpleEscape? e with
                  | some c' => readString start 1 (c' :: done) rest
                  | none => .error (.fault .invalidEscape (c :: rest))
          else if c.toNat < 0x20 then .error (.fault .controlCharacter (c :: rest))
          else readString start 0 (c :: done) rest

/-- The parts of a number literal: its sign, the digits before and behind the point, and the
exponent; the last two are missing in an integer. -/
structure Literal where
  negative : Bool
  whole : List Char
  fraction : Option (List Char)
  exponent : Option Int
deriving DecidableEq, Repr

def Literal.toNumber (l : Literal) : Except Failure Number :=
  match l.fraction, l.exponent with
  | none, none =>
      if digitLimit < l.whole.length then .error .integerTooLong
      else
        let n : Int := digitsValue l.whole
        .ok (.int (if l.negative then -n else n))
  | fraction, exponent =>
      let fraction := fraction.getD []
      .ok (.float (.ofDecimal l.negative (digitsValue (l.whole ++ fraction))
        (exponent.getD 0 - fraction.length)))

/-- The digits before the point: a zero, or digits that begin with another one. -/
def readWhole : List Char → Option (List Char × List Char)
  | [] => none
  | c :: rest =>
      if c = '0' then some ([c], rest)
      else if isDigit c then some (c :: rest.takeWhile isDigit, rest.dropWhile isDigit)
      else none

def readFraction : List Char → Option (List Char) × List Char
  | '.' :: rest =>
      if (rest.takeWhile isDigit).isEmpty then (none, '.' :: rest)
      else (some (rest.takeWhile isDigit), rest.dropWhile isDigit)
  | rest => (none, rest)

def readSign : List Char → Bool × List Char
  | '-' :: rest => (true, rest)
  | '+' :: rest => (false, rest)
  | rest => (false, rest)

def readExponent : List Char → Option Int × List Char
  | [] => (none, [])
  | c :: rest =>
      let (negative, digits) := readSign rest
      if (c = 'e' ∨ c = 'E') ∧ !(digits.takeWhile isDigit).isEmpty then
        let n : Int := digitsValue (digits.takeWhile isDigit)
        (some (if negative then -n else n), digits.dropWhile isDigit)
      else (none, c :: rest)

/-- The longest number literal at the head of a text. -/
def readLiteral (text : List Char) : Option (Literal × List Char) :=
  let (negative, unsigned) :=
    match text with
    | '-' :: rest => (true, rest)
    | rest => (false, rest)
  match readWhole unsigned with
  | none => none
  | some (whole, rest) =>
      let (fraction, rest) := readFraction rest
      let (exponent, rest) := readExponent rest
      some (⟨negative, whole, fraction, exponent⟩, rest)

def readNumber (text : List Char) : Except Failure (Json × List Char) :=
  match readLiteral text with
  | none => .error (.fault .expectingValue text)
  | some (literal, rest) =>
      match literal.toNumber with
      | .ok n => .ok (.number n, rest)
      | .error failure => .error failure

/-- The words of JSON and those that only look like numbers. -/
def words : List (List Char × Except Failure Json) :=
  [("null".toList, .ok .null), ("true".toList, .ok (.bool true)),
    ("false".toList, .ok (.bool false)), ("NaN".toList, .error (.constant "NaN")),
    ("Infinity".toList, .error (.constant "Infinity")),
    ("-Infinity".toList, .error (.constant "-Infinity"))]

def readWord? (text : List Char) : Option (Except Failure (Json × List Char)) :=
  words.findSome? fun (word, result) =>
    (word.isPrefixOf? text).map fun rest => result.map fun value => (value, rest)

def readScalar (text : List Char) : Except Failure (Json × List Char) :=
  match readWord? text with
  | some result => result
  | none => readNumber text

/-- A parser of what comes first in a text. -/
abbrev Reader (α : Type) := List Char → Except Failure (α × List Char)

/-- The items of an array from the first one on, with those so far in reverse. The fuel is any bound
on their number. -/
def readItems (item : Reader Json) : Nat → List Json → Reader (List Json)
  | 0, _, text => .error (.fault .expectingValue text)
  | fuel + 1, done, text => do
      let (value, rest) ← item text
      match skipSpace rest with
      | ']' :: rest => .ok ((value :: done).reverse, rest)
      | ',' :: rest => readItems item fuel (value :: done) (skipSpace rest)
      | rest => .error (.fault .expectingComma rest)

/-- A key with its colon. -/
def readName : Reader String
  | '"' :: rest => do
      let (name, rest) ← readString ('"' :: rest) 0 [] rest
      match skipSpace rest with
      | ':' :: rest => .ok (String.ofList name, skipSpace rest)
      | rest => .error (.fault .expectingColon rest)
  | text => .error (.fault .expectingName text)

/-- The members of an object from the first one on, as `readItems`. -/
def readMembers (item : Reader Json) : Nat → List (String × Json) → Reader (List (String × Json))
  | 0, _, text => .error (.fault .expectingName text)
  | fuel + 1, done, text => do
      let (name, rest) ← readName text
      let (value, rest) ← item rest
      match skipSpace rest with
      | '}' :: rest => .ok (((name, value) :: done).reverse, rest)
      | ',' :: rest => readMembers item fuel ((name, value) :: done) (skipSpace rest)
      | rest => .error (.fault .expectingComma rest)

/-- The value at the head of a text of at most `size` characters, in which containers nest at most
`depth` deep. -/
def readValue (size : Nat) : (depth : Nat) → Reader Json
  | depth, text =>
    match text with
    | [] => .error (.fault .expectingValue text)
    | '"' :: rest =>
        (readString text 0 [] rest).map fun (s, rest) => (.string (String.ofList s), rest)
    | '[' :: rest =>
        match depth with
        | 0 => .error .tooDeep
        | depth + 1 =>
            match skipSpace rest with
            | ']' :: rest => .ok (.array [], rest)
            | rest =>
                (readItems (readValue size depth) size [] rest).map fun (items, rest) =>
                  (.array items, rest)
    | '{' :: rest =>
        match depth with
        | 0 => .error .tooDeep
        | depth + 1 =>
            match skipSpace rest with
            | '}' :: rest => .ok (.object [], rest)
            | rest =>
                (readMembers (readValue size depth) size [] rest).map fun (members, rest) =>
                  (.object (Table.ofList members), rest)
    | text => readScalar text

/-- The value of a text that holds nothing else but space. -/
def ofText (text : List Char) : Except Failure Json :=
  if text.head? = some '\uFEFF' then .error (.fault .byteOrderMark text)
  else do
    let (value, rest) ← readValue text.length nestingLimit (skipSpace text)
    match skipSpace rest with
    | [] => .ok value
    | rest => .error (.fault .extraData rest)

/-- Why bytes are not read as a document. -/
inductive ParseError where
  | encoding (problem : Utf8.Problem) (offset : Nat)
  | fault (what : Fault) (offset : Nat)
  | constant (name : String)
  | tooDeep
  | integerTooLong
deriving DecidableEq, Repr

namespace ParseError

def offset? : ParseError → Option Nat
  | .encoding _ offset => some offset
  | .fault _ offset => some offset
  | _ => none

/-- The text of an error, without the offset. -/
def cause : ParseError → String
  | .encoding problem _ => s!"Invalid UTF-8: {problem.message}"
  | .fault what _ => s!"Invalid JSON: {what.message}"
  | .constant name => s!"Invalid numeric literal '{name}'"
  | .tooDeep => "Invalid JSON: document is nested too deeply"
  | .integerTooLong => "integer literal has too many digits"

def message (e : ParseError) : String :=
  match e.offset? with
  | some offset => s!"{e.cause} (at byte offset {offset})"
  | none => e.cause

end ParseError

def byteOrderMark : Bytes := [0xef, 0xbb, 0xbf]

/-- Parses text of which `skipped` bytes have been passed over. -/
def parseFrom (skipped : Nat) (bs : Bytes) : Except ParseError Json :=
  match Utf8.decode bs with
  | .error e => .error (.encoding e.problem (skipped + e.offset))
  | .ok text =>
      match ofText text with
      | .ok value => .ok value
      | .error (.fault what rest) =>
          .error (.fault what (skipped + (Utf8.size text - Utf8.size rest)))
      | .error (.constant name) => .error (.constant name)
      | .error .tooDeep => .error .tooDeep
      | .error .integerTooLong => .error .integerTooLong

/-- Parses a document, which may begin with one byte order mark. -/
def parse (bs : Bytes) : Except ParseError Json :=
  match byteOrderMark.isPrefixOf? bs with
  | some rest => parseFrom 3 rest
  | none => parseFrom 0 bs

end Gltf.Json
