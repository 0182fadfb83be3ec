import Gltf.Binary64.Shortest
import Gltf.Table

/-!
JSON values with exact numbers: an integer literal is an integer of any size, any other number is a
binary64. The members of an object keep their order, and a key stands once.
-/

namespace Gltf

inductive Number where
  | int (n : Int)
  | float (x : Binary64)
deriving DecidableEq, Repr

inductive Json where
  | null
  | bool (b : Bool)
  | number (n : Number)
  | string (s : String)
  | array (items : List Json)
  | object (members : List (String × Json))

instance : Inhabited Json := ⟨.null⟩

/-- Numbers in messages: positional from 0.0001 up to below 10 ^ 16. -/
def Number.layout : Binary64.Layout where
  positionalFrom := -4
  positionalBelow := 16
  infinity := ['i', 'n', 'f']
  nan := ['n', 'a', 'n']

def intText (n : Int) : List Char :=
  (if n < 0 then ['-'] else []) ++ Nat.toDigits 10 n.natAbs

def Number.textWith (layout : Binary64.Layout) : Number → List Char
  | .int n => intText n
  | .float x => layout.text x

def Number.text (n : Number) : String := String.ofList (n.textWith Number.layout)

namespace Json

inductive Kind where
  | null
  | bool
  | integer
  | number
  | string
  | array
  | object
deriving DecidableEq, Repr

def Kind.name : Kind → String
  | .null => "null"
  | .bool => "bool"
  | .integer => "integer"
  | .number => "number"
  | .string => "string"
  | .array => "array"
  | .object => "object"

def kind : Json → Kind
  | .null => .null
  | .bool _ => .bool
  | .number (.int _) => .integer
  | .number (.float _) => .number
  | .string _ => .string
  | .array _ => .array
  | .object _ => .object

/-- The value of a key, and null where there is none. -/
def member (value : Json) (key : String) : Json :=
  match value with
  | .object members => (Table.get? members key).getD .null
  | _ => .null

def stringOr (fallback : String) : Json → String
  | .string s => s
  | _ => fallback

def boolOr (fallback : Bool) : Json → Bool
  | .bool b => b
  | _ => fallback

end Json

end Gltf
