import Gltf.Json.Coercion
import Gltf.Record

/-!
Object types as data. A property has a key in the document, a field in the record, a shape that says
which values it takes, and the value it has until one is read. A shape is a form that may be null,
or a choice of several forms; forms nest in lists, maps and object types.
-/

namespace Gltf

/-- Named integers, such as the component types. -/
structure IntEnum where
  name : String
  members : List Int
deriving DecidableEq, Repr

/-- Named strings, such as the alpha modes. -/
structure StringEnum where
  name : String
  members : List String
deriving DecidableEq, Repr

mutual

inductive Form where
  | bool
  | string
  | number (kind : NumberKind)
  | intEnum (enum : IntEnum)
  | stringEnum (enum : StringEnum)
  | any
  | list (item : Shape)
  | map (item : Shape)
  | object (type : ObjectType)
  /-- A form that no value has; `text` names it in messages. -/
  | unreadable (text : String)

inductive Shape where
  | required (form : Form)
  | optional (form : Form)
  /-- The first form that reads a value cleanly takes it; `text` names the choice in messages, and
  `listsNull` says whether null is declared beside the forms. -/
  | choice (forms : List Form) (text : String) (listsNull : Bool := true)

inductive ObjectType where
  | mk (lineage : Lineage) (extensionName : String) (requiredFields : List String)
      (properties : List Property) (derived : List String)

inductive Property where
  | mk (key field : String) (shape : Shape) (initial : Value)

end

namespace Property

def key : Property → String
  | mk key _ _ _ => key

def field : Property → String
  | mk _ field _ _ => field

def shape : Property → Shape
  | mk _ _ shape _ => shape

def initial : Property → Value
  | mk _ _ _ initial => initial

end Property

namespace ObjectType

def lineage : ObjectType → Lineage
  | mk lineage _ _ _ _ => lineage

/-- The key of an object of this type among extensions; empty for what is no extension. -/
def extensionName : ObjectType → String
  | mk _ extensionName _ _ _ => extensionName

/-- The fields whose keys must be present. -/
def requiredFields : ObjectType → List String
  | mk _ _ requiredFields _ _ => requiredFields

def properties : ObjectType → List Property
  | mk _ _ _ properties _ => properties

/-- The fields that are filled in after reading and have no key; they start out null. -/
def derived : ObjectType → List String
  | mk _ _ _ _ derived => derived

def name (t : ObjectType) : String := t.lineage.name

def property? (t : ObjectType) (key : String) : Option Property :=
  t.properties.find? (·.key == key)

/-- The object with every field at its initial value. -/
def blank (t : ObjectType) : Record :=
  .mk t.lineage
    (t.properties.map (fun p => (p.field, p.initial)) ++ t.derived.map (·, Value.null))
    [] .null []

end ObjectType

end Gltf
