import Gltf.Bytes
import Gltf.Json.Coercion

/-!
Values read from a document. A scalar, and whatever is kept verbatim, is its own JSON value; a record
is an object of a known kind with a value for each of its fields. Beside its fields a record carries
extensions, extras and the members that its kind does not know.
-/

namespace Gltf

/-- What an object is: its most specific kind and the more general ones above it. -/
structure Lineage where
  name : String
  bases : List String
deriving DecidableEq, Repr

namespace Lineage

/-- The kinds of an object, most specific first. -/
def chain (l : Lineage) : List String := l.name :: l.bases

def isA (l : Lineage) (name : String) : Bool := l.chain.contains name

end Lineage

mutual

inductive Value where
  | json (j : Json)
  | list (items : List Value)
  | map (entries : List (String × Value))
  | record (r : Record)
  | bytes (bs : Bytes)

inductive Record where
  | mk (lineage : Lineage) (fields : List (String × Value)) (extensions : List (String × Value))
      (extras : Json) (unknown : List (String × Json))

end

namespace Record

def lineage : Record → Lineage
  | mk lineage _ _ _ _ => lineage

def fields : Record → Table String Value
  | mk _ fields _ _ _ => fields

def extensions : Record → Table String Value
  | mk _ _ extensions _ _ => extensions

def extras : Record → Json
  | mk _ _ _ extras _ => extras

def unknown : Record → Table String Json
  | mk _ _ _ _ unknown => unknown

end Record

/-- What every object carries beside its own fields. -/
structure Attachments where
  extensions : Table String Value := []
  extras : Json := .null
  unknown : Table String Json := []

namespace Attachments

/-- The extension under a key, if it was read as a record of the given kind. -/
def typed? (a : Attachments) (key kind : String) : Option Record :=
  match Table.get? a.extensions key with
  | some (.record r) => if r.lineage.isA kind then some r else none
  | _ => none

/-- The extension under a key, if it was not read as a record. -/
def generic? (a : Attachments) (key : String) : Option Value :=
  match Table.get? a.extensions key with
  | some (.record _) => none
  | some (.json .null) => none
  | found => found

def add (a : Attachments) (key : String) (extension : Record) : Attachments :=
  { a with extensions := Table.put a.extensions key (.record extension) }

end Attachments

namespace Record

def attachments (r : Record) : Attachments := ⟨r.extensions, r.extras, r.unknown⟩

def withAttachments (r : Record) (a : Attachments) : Record :=
  mk r.lineage r.fields a.extensions a.extras a.unknown

/-- A record of no kind with nothing in it. -/
def empty : Record := mk ⟨"", []⟩ [] [] .null []

def field (r : Record) (name : String) : Value := (Table.get? r.fields name).getD (.json .null)

def setField (r : Record) (name : String) (v : Value) : Record :=
  mk r.lineage (Table.put r.fields name v) r.extensions r.extras r.unknown

def eraseField (r : Record) (name : String) : Record :=
  mk r.lineage (Table.erase r.fields name) r.extensions r.extras r.unknown

end Record

namespace Value

def null : Value := .json .null

def ofInt (n : Int) : Value := .json (.number (.int n))

def ofFloat (x : Binary64) : Value := .json (.number (.float x))

def ofString (s : String) : Value := .json (.string s)

def ofBool (b : Bool) : Value := .json (.bool b)

def ofOption {α : Type} (f : α → Value) : Option α → Value
  | none => null
  | some a => f a

/-- The integer that a value is; a boolean counts as zero or one. -/
def int? : Value → Option Int
  | .json (.number n) => n.toInt?
  | .json (.bool b) => some (if b then 1 else 0)
  | _ => none

def float? : Value → Option Binary64
  | .json (.number (.float x)) => some x
  | _ => none

def string? : Value → Option String
  | .json (.string s) => some s
  | _ => none

def json? : Value → Option Json
  | .json j => some j
  | _ => none

def bytes? : Value → Option Bytes
  | .bytes bs => some bs
  | _ => none

def record? : Value → Option Record
  | .record r => some r
  | _ => none

/-- Whether a value counts as true: numbers that are zero do not, nor does what is empty or null. -/
def isTrue : Value → Bool
  | .json .null => false
  | .json (.bool b) => b
  | .json (.number (.int n)) => n != 0
  | .json (.number (.float x)) => x.bits <<< 1 != 0
  | .json (.string s) => !s.isEmpty
  | .json (.array items) => !items.isEmpty
  | .json (.object members) => !members.isEmpty
  | .list items => !items.isEmpty
  | .map entries => !entries.isEmpty
  | .record _ => true
  | .bytes bs => !bs.isEmpty

/-- The items of a list; any other value has none. -/
def items : Value → List Value
  | .list items => items
  | _ => []

/-- The entries of a map; any other value has none. -/
def entries : Value → List (String × Value)
  | .map entries => entries
  | _ => []

end Value

end Gltf
