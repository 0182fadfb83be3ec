import Gltf.Json.Parser
import Gltf.Proofs.Table
import Mathlib

/-!
The grammar of JSON texts, without a reader: a tree for each way to spell a text, with its blanks,
the notation of its numbers and the escapes in its strings. What a tree cannot be is no JSON: numbers
have no leading zeros and no empty parts, strings no raw control characters. A tree says its text,
how deep it is nested, how long its integers are, and its value, which only strings with a lone
surrogate lack.
-/

namespace Gltf.Json.Syntax

/-- Blanks between tokens. -/
structure Space where
  chars : List Char
  blank : ∀ c ∈ chars, c = ' ' ∨ c = '\t' ∨ c = '\n' ∨ c = '\r'

def Space.none : Space := ⟨[], by simp⟩

/-! ### Numbers -/

/-- The digits of a natural number, the first one first. -/
abbrev Digits := List (Fin 10)

namespace Digits

def text (ds : Digits) : List Char := ds.map fun d : Fin 10 => Nat.digitChar d.val

def value (ds : Digits) : Nat := Nat.ofDigits 10 (ds.reverse.map (·.val))

end Digits

inductive Sign where
  | plus
  | minus

def Sign.char : Sign → Char
  | .plus => '+'
  | .minus => '-'

structure Exponent where
  upper : Bool
  sign : Option Sign
  digits : Digits
  nonempty : digits ≠ []

namespace Exponent

def text (e : Exponent) : List Char :=
  (if e.upper then 'E' else 'e') :: ((e.sign.map Sign.char).toList ++ e.digits.text)

def value (e : Exponent) : Int :=
  match e.sign with
  | some .minus => -(e.digits.value : Int)
  | _ => e.digits.value

end Exponent

structure Numeral where
  negative : Bool
  whole : Digits
  fraction : Option {ds : Digits // ds ≠ []}
  exponent : Option Exponent
  nonempty : whole ≠ []
  leading : whole.head? = some 0 → whole = [0]

namespace Numeral

def fractionText (n : Numeral) : List Char :=
  match n.fraction with
  | some ds => '.' :: ds.val.text
  | none => []

def exponentText (n : Numeral) : List Char :=
  match n.exponent with
  | some e => e.text
  | none => []

def text (n : Numeral) : List Char :=
  (if n.negative then ['-'] else []) ++ (n.whole.text ++ (n.fractionText ++ n.exponentText))

/-- Whether the literal has neither a fraction nor an exponent. -/
def isInteger (n : Numeral) : Bool := n.fraction.isNone && n.exponent.isNone

/-- The number of an integer exactly, and any other one rounded to binary64. -/
def value (n : Numeral) : Number :=
  if n.isInteger then .int (if n.negative then -(n.whole.value : Int) else n.whole.value)
  else
    let fraction : Digits := (n.fraction.map (·.val)).getD []
    let exponent : Int := (n.exponent.map Exponent.value).getD 0
    .float (.ofDecimal n.negative (Digits.value (n.whole ++ fraction))
      (exponent - fraction.length))

end Numeral

/-! ### Strings -/

/-- The escapes of two characters. -/
inductive Escape where
  | quote
  | backslash
  | slash
  | backspace
  | formFeed
  | lineFeed
  | carriageReturn
  | tab

namespace Escape

def letter : Escape → Char
  | .quote => '"'
  | .backslash => '\\'
  | .slash => '/'
  | .backspace => 'b'
  | .formFeed => 'f'
  | .lineFeed => 'n'
  | .carriageReturn => 'r'
  | .tab => 't'

def char : Escape → Char
  | .quote => '"'
  | .backslash => '\\'
  | .slash => '/'
  | .backspace => '\x08'
  | .formFeed => '\x0c'
  | .lineFeed => '\n'
  | .carriageReturn => '\r'
  | .tab => '\t'

end Escape

structure HexDigit where
  value : Fin 16
  upper : Bool

def HexDigit.char (d : HexDigit) : Char :=
  if d.upper then (Nat.digitChar d.value).toUpper else Nat.digitChar d.value

/-- The four digits of an escaped code unit of UTF-16. -/
structure CodeUnit where
  first : HexDigit
  second : HexDigit
  third : HexDigit
  fourth : HexDigit

namespace CodeUnit

def digits (u : CodeUnit) : List Char := [u.first.char, u.second.char, u.third.char, u.fourth.char]

def value (u : CodeUnit) : Nat :=
  ((u.first.value * 16 + u.second.value) * 16 + u.third.value) * 16 + u.fourth.value

def isHigh (u : CodeUnit) : Bool := 0xd800 ≤ u.value && u.value ≤ 0xdbff

def isLow (u : CodeUnit) : Bool := 0xdc00 ≤ u.value && u.value ≤ 0xdfff

end CodeUnit

inductive Piece where
  | plain (c : Char) (quotable : 0x20 ≤ c.toNat ∧ c ≠ '"' ∧ c ≠ '\\')
  | escape (e : Escape)
  | unit (u : CodeUnit)

def Piece.text : Piece → List Char
  | .plain c _ => [c]
  | .escape e => ['\\', e.letter]
  | .unit u => '\\' :: 'u' :: u.digits

/-- The text between the quotes of a string. -/
def piecesText (ps : List Piece) : List Char := ps.flatMap Piece.text

/-- The text of a string with its quotes. -/
def quoted (ps : List Piece) : List Char := '"' :: (piecesText ps ++ ['"'])

/-- The character of a surrogate pair. -/
def joined (high low : CodeUnit) : Char :=
  Char.ofNat (0x10000 + (high.value - 0xd800) * 0x400 + (low.value - 0xdc00))

/-- The characters of a string; a surrogate without its counterpart is none. -/
def chars? : List Piece → Option (List Char)
  | [] => some []
  | .plain c _ :: ps => (chars? ps).map (c :: ·)
  | .escape e :: ps => (chars? ps).map (e.char :: ·)
  | .unit u :: ps =>
      if u.isHigh then
        match ps with
        | .unit low :: ps => if low.isLow then (chars? ps).map (joined u low :: ·) else none
        | _ => none
      else if u.isLow then none
      else (chars? ps).map (Char.ofNat u.value :: ·)

/-- No surrogate stands alone: a high one is followed by a low one, and a low one follows such. -/
inductive Paired : List Piece → Prop
  | nil : Paired []
  | plain {c : Char} {ps : List Piece} (quotable : 0x20 ≤ c.toNat ∧ c ≠ '"' ∧ c ≠ '\\')
      (more : Paired ps) : Paired (.plain c quotable :: ps)
  | escape {ps : List Piece} (e : Escape) (more : Paired ps) : Paired (.escape e :: ps)
  | unit {u : CodeUnit} {ps : List Piece} (high : u.isHigh = false) (low : u.isLow = false)
      (more : Paired ps) : Paired (.unit u :: ps)
  | pair {u v : CodeUnit} {ps : List Piece} (high : u.isHigh = true) (low : v.isLow = true)
      (more : Paired ps) : Paired (.unit u :: .unit v :: ps)

/-! ### Values -/

/-- The name of a member, up to its colon. -/
structure Name where
  before : Space
  pieces : List Piece
  after : Space

def Name.text (n : Name) : List Char := n.before.chars ++ (quoted n.pieces ++ (n.after.chars ++ [':']))

mutual

inductive Tree where
  | null
  | bool (b : Bool)
  | number (n : Numeral)
  | string (ps : List Piece)
  | emptyArray (inside : Space)
  | array (items : Items)
  | emptyObject (inside : Space)
  | object (members : Members)

inductive Items where
  | last (before : Space) (item : Tree) (after : Space)
  | next (before : Space) (item : Tree) (after : Space) (more : Items)

inductive Members where
  | last (name : Name) (before : Space) (value : Tree) (after : Space)
  | next (name : Name) (before : Space) (value : Tree) (after : Space) (more : Members)

end

mutual

def Tree.text : Tree → List Char
  | .null => ['n', 'u', 'l', 'l']
  | .bool true => ['t', 'r', 'u', 'e']
  | .bool false => ['f', 'a', 'l', 's', 'e']
  | .number n => n.text
  | .string ps => quoted ps
  | .emptyArray inside => '[' :: (inside.chars ++ [']'])
  | .array items => '[' :: (items.text ++ [']'])
  | .emptyObject inside => '{' :: (inside.chars ++ ['}'])
  | .object members => '{' :: (members.text ++ ['}'])

def Items.text : Items → List Char
  | .last before item after => before.chars ++ (item.text ++ after.chars)
  | .next before item after more =>
      before.chars ++ (item.text ++ (after.chars ++ ',' :: more.text))

def Members.text : Members → List Char
  | .last name before value after => name.text ++ (before.chars ++ (value.text ++ after.chars))
  | .next name before value after more =>
      name.text ++ (before.chars ++ (value.text ++ (after.chars ++ ',' :: more.text)))

end

mutual

/-- How many arrays and objects stand one inside the other. -/
def Tree.depth : Tree → Nat
  | .emptyArray _ => 1
  | .array items => items.depth + 1
  | .emptyObject _ => 1
  | .object members => members.depth + 1
  | _ => 0

def Items.depth : Items → Nat
  | .last _ item _ => item.depth
  | .next _ item _ more => max item.depth more.depth

def Members.depth : Members → Nat
  | .last _ _ value _ => value.depth
  | .next _ _ value _ more => max value.depth more.depth

end

mutual

/-- The number of digits of the longest integer. -/
def Tree.longestInteger : Tree → Nat
  | .number n => if n.isInteger then n.whole.length else 0
  | .array items => items.longestInteger
  | .object members => members.longestInteger
  | _ => 0

def Items.longestInteger : Items → Nat
  | .last _ item _ => item.longestInteger
  | .next _ item _ more => max item.longestInteger more.longestInteger

def Members.longestInteger : Members → Nat
  | .last _ _ value _ => value.longestInteger
  | .next _ _ value _ more => max value.longestInteger more.longestInteger

end

mutual

/-- The strings and names of a value. -/
def Tree.strings : Tree → List (List Piece)
  | .string ps => [ps]
  | .array items => items.strings
  | .object members => members.strings
  | _ => []

def Items.strings : Items → List (List Piece)
  | .last _ item _ => item.strings
  | .next _ item _ more => item.strings ++ more.strings

def Members.strings : Members → List (List Piece)
  | .last name _ value _ => name.pieces :: value.strings
  | .next name _ value _ more => name.pieces :: (value.strings ++ more.strings)

end

/-- Members with each key once, at its first place and with its last value. -/
def merged : List (String × Json) → List (String × Json)
  | [] => []
  | (key, value) :: members =>
      (key, (Table.get? (merged members) key).getD value) :: Table.erase (merged members) key

mutual

/-- The value that a tree spells, unless a surrogate stands alone in it. -/
def Tree.value? : Tree → Option Json
  | .null => some .null
  | .bool b => some (.bool b)
  | .number n => some (.number n.value)
  | .string ps => (chars? ps).map fun cs => .string (String.ofList cs)
  | .emptyArray _ => some (.array [])
  | .array items => items.values?.map .array
  | .emptyObject _ => some (.object [])
  | .object members => members.entries?.map fun entries => .object (merged entries)

def Items.values? : Items → Option (List Json)
  | .last _ item _ => item.value?.map ([·])
  | .next _ item _ more => do
      let v ← item.value?
      let vs ← more.values?
      some (v :: vs)

def Members.entries? : Members → Option (List (String × Json))
  | .last name _ value _ => do
      let cs ← chars? name.pieces
      let v ← value.value?
      some [(String.ofList cs, v)]
  | .next name _ value _ more => do
      let cs ← chars? name.pieces
      let v ← value.value?
      let entries ← more.entries?
      some ((String.ofList cs, v) :: entries)

end

theorem Items.values?_next {before after : Space} {item : Tree} {more : Items} {vs : List Json} :
    (Items.next before item after more).values? = some vs ↔
      ∃ v vs', item.value? = some v ∧ more.values? = some vs' ∧ v :: vs' = vs := by
  simp only [Items.values?, Option.bind_eq_bind, Option.bind_eq_some_iff, Option.some.injEq,
    exists_and_left]

theorem Members.entries?_last {name : Name} {before after : Space} {value : Tree}
    {entries : List (String × Json)} :
    (Members.last name before value after).entries? = some entries ↔
      ∃ cs v, chars? name.pieces = some cs ∧ value.value? = some v ∧
        [(String.ofList cs, v)] = entries := by
  simp only [Members.entries?, Option.bind_eq_bind, Option.bind_eq_some_iff, Option.some.injEq,
    exists_and_left]

theorem Members.entries?_next {name : Name} {before after : Space} {value : Tree} {more : Members}
    {entries : List (String × Json)} :
    (Members.next name before value after more).entries? = some entries ↔
      ∃ cs v entries', chars? name.pieces = some cs ∧ value.value? = some v ∧
        more.entries? = some entries' ∧ (String.ofList cs, v) :: entries' = entries := by
  simp only [Members.entries?, Option.bind_eq_bind, Option.bind_eq_some_iff, Option.some.injEq,
    exists_and_left]

/-- A JSON text: a value with blanks around it. -/
structure Document where
  before : Space
  tree : Tree
  after : Space

def Document.text (d : Document) : List Char := d.before.chars ++ (d.tree.text ++ d.after.chars)

/-- The bytes of a document in UTF-8, with or without a byte order mark before them. -/
def Document.Spells (d : Document) (bs : Bytes) : Prop :=
  bs = Utf8.encode d.text ∨ bs = byteOrderMark ++ Utf8.encode d.text

end Gltf.Json.Syntax
