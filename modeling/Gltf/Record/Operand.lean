import Gltf.Json.Arithmetic
import Gltf.Record.Place
import Gltf.Text.Quoted

/-!
Values as operands. Where a number is called for, a boolean counts as zero or one; texts and byte
strings can be joined and repeated. What a value of another kind cannot do is a fault.
-/

namespace Gltf.Value

def ofNumber (n : Number) : Value := .json (.number n)

/-- The number that a value counts as. -/
def number? : Value → Option Number
  | .json (.number n) => some n
  | .json (.bool b) => some (.int (if b then 1 else 0))
  | _ => none

/-- The integer that a value counts as. A binary64 is none, whatever its value. -/
def integer? (v : Value) : Option Int :=
  match v.number? with
  | some (.int n) => some n
  | _ => none

def isInteger : Value → Bool
  | .json (.number (.int _)) => true
  | _ => false

def integer (v : Value) : Except Fault Int :=
  match v.integer? with
  | some n => .ok n
  | none => .error (.noInteger v.kindName)

/-- A value in a message. -/
def text : Value → String
  | .json .null => "None"
  | .json (.bool b) => if b then "True" else "False"
  | .json (.number n) => n.text
  | .json (.string s) => s
  | .bytes bs => Text.quotedBytes bs
  | v => v.kindName

instance : ToString Value := ⟨text⟩

/-! Arithmetic and order -/

def ofResult : Option Number → Except Fault Value
  | some n => .ok (.ofNumber n)
  | none => .error .tooLarge

def plus (a b : Value) : Except Fault Value :=
  match a, b with
  | .json (.string s), .json (.string t) => .ok (.ofString (s ++ t))
  | .json (.string _), b => .error (.noText b.kindName)
  | .bytes s, .bytes t => .ok (.bytes (s ++ t))
  | .bytes _, b => .error (.noByteString b.kindName)
  | a, b =>
      match a.number?, b.number? with
      | some m, some n => ofResult (m.add? n)
      | _, _ => .error (.noOperation "+" a.kindName b.kindName)

def minus (a b : Value) : Except Fault Value :=
  match a.number?, b.number? with
  | some m, some n => ofResult (m.sub? n)
  | _, _ => .error (.noOperation "-" a.kindName b.kindName)

/-- The number of bytes for which there is no memory. -/
def memoryLimit : Int := 0x1000000000

/-- A number of bytes that there can be, none if it is negative. -/
def allocation (n : Int) : Except Fault Nat :=
  if !Bytes.isWord n then .error .beyondWord
  else if memoryLimit ≤ n then .error .noMemory
  else .ok n.toNat

/-- A text or a byte string so many times. -/
def repeated (v count : Value) : Except Fault Value := do
  match count.integer? with
  | none => .error (.noRepetition count.kindName)
  | some n =>
      let n ← allocation n
      match v with
      | .json (.string s) => .ok (.ofString (String.join (List.replicate n s)))
      | .bytes bs => .ok (.bytes (List.replicate n bs).flatten)
      | v => .error (.noOperation "*" v.kindName count.kindName)

def isText : Value → Bool
  | .json (.string _) => true
  | .bytes _ => true
  | _ => false

def times (a b : Value) : Except Fault Value :=
  match a.number?, b.number? with
  | some m, some n => ofResult (m.mul? n)
  | _, _ =>
      if a.isText then a.repeated b
      else if b.isText then b.repeated a
      else .error (.noOperation "*" a.kindName b.kindName)

def compare (relation : String) (holds : Number → Number → Bool) (a b : Value) :
    Except Fault Bool :=
  match a.number?, b.number? with
  | some m, some n => .ok (holds m n)
  | _, _ => .error (.unordered relation a.kindName b.kindName)

def atMost : Value → Value → Except Fault Bool := compare "<=" Number.le

def lessThan : Value → Value → Except Fault Bool := compare "<" Number.lt

def greaterThan : Value → Value → Except Fault Bool := compare ">" fun m n => n.lt m

/-- Whether a value counts as this number. -/
def isNumber (v : Value) (n : Number) : Bool := v.number?.any n.sameValue

/-! Parts -/

def field (v : Value) (name : String) : Except Fault Value :=
  match v with
  | .record r =>
      match r.get? name with
      | some found => .ok found
      | none => .error (.noField r.lineage.name name)
  | v => .error (.noField v.kindName name)

def extension? (v : Value) (type : ObjectType) : Except Fault (Option Record) :=
  match v with
  | .record r => do .ok ((← r.carriage).typed? type.extensionName type.name)
  | v => .error (.noField v.kindName "get_extension")

def length : Value → Except Fault Nat
  | .json (.string s) => .ok s.length
  | .json (.array items) => .ok items.length
  | .json (.object members) => .ok members.length
  | .list items => .ok items.length
  | .map entries => .ok entries.length
  | .bytes bs => .ok bs.length
  | v => .error (.noLength v.kindName)

/-- What a loop over a value runs through. -/
def elements : Value → Except Fault (List Value)
  | .json (.string s) => .ok (s.toList.map fun c => .ofString (String.ofList [c]))
  | .json (.array items) => .ok (items.map .json)
  | .json (.object members) => .ok (members.map fun (key, _) => .ofString key)
  | .list items => .ok items
  | .map entries => .ok (entries.map fun (key, _) => .ofString key)
  | .bytes bs => .ok (bs.map fun b => .ofInt b.toNat)
  | v => .error (.noElements v.kindName)

/-- Whether an index is one of those of a container, which do not count from the end. -/
def isIndexOf (index container : Value) : Except Fault Bool := do
  if ← (ofInt 0).atMost index then index.lessThan (.ofInt (← container.length)) else .ok false

def element (container index : Value) : Except Fault Value := do
  let elements ← container.elements
  match index.integer? with
  | none => .error (.noPosition container.kindName index.kindName)
  | some i =>
      match (placeOf? elements.length i).bind (elements[·]?) with
      | some found => .ok found
      | none => .error (.noItem container.kindName)

/-- The part of a text or a byte string from a position up to another one. -/
def slice (v start stop : Value) : Except Fault Value :=
  match v, start.integer?, stop.integer? with
  | .bytes bs, some i, some j => .ok (.bytes (Bytes.slice bs i j))
  | .json (.string s), some i, some j =>
      let length := s.length
      let chars := s.toList.drop (Bytes.place length i)
      .ok (.ofString (String.ofList (chars.take (Bytes.place length j - Bytes.place length i))))
  | .bytes _, _, _ => .error .noBound
  | .json (.string _), _, _ => .error .noBound
  | v, _, _ => .error (.noItems v.kindName)

/-- The entries of a map. What is empty has none. -/
def entriesOf (v : Value) : Except Fault (Table String Value) := do
  match v, ← v.elements with
  | .map entries, _ => .ok entries
  | .json (.object members), _ => .ok (members.map fun (key, j) => (key, .json j))
  | _, [] => .ok []
  | .json (.string _), _ => .error .shortEntry
  | _, _ => .error .noEntry

end Gltf.Value
