import Gltf.Options
import Gltf.Proofs.Schema.Nulls
import Mathlib

/-!
Object types that are plain: no shape in them is a choice, and the records in their initial values
carry neither extensions nor unknown members. The types of glTF and of the extensions read out of
the box are such; options are built-in if they hand extensions to no other types.
-/

namespace Gltf

mutual

/-- Whether the records in a value carry neither extensions nor unknown members. -/
def Value.isFresh : Value → Bool
  | .json _ => true
  | .list items => itemsAreFresh items
  | .map entries => entriesAreFresh entries
  | .record r => r.isFresh
  | .bytes _ => true
termination_by structural v => v

def Record.isFresh : Record → Bool
  | .mk _ fields extensions _ unknown =>
      extensions.isEmpty && unknown.isEmpty && entriesAreFresh fields
termination_by structural r => r

def itemsAreFresh : List Value → Bool
  | [] => true
  | v :: items => v.isFresh && itemsAreFresh items
termination_by structural items => items

def entriesAreFresh : List (String × Value) → Bool
  | [] => true
  | (_, v) :: entries => v.isFresh && entriesAreFresh entries
termination_by structural entries => entries

end

theorem itemsAreFresh_iff (items : List Value) :
    itemsAreFresh items = true ↔ ∀ v ∈ items, v.isFresh = true := by
  induction items with
  | nil => simp [itemsAreFresh]
  | cons v items ih => simp [itemsAreFresh, ih]

theorem entriesAreFresh_iff (entries : List (String × Value)) :
    entriesAreFresh entries = true ↔ ∀ e ∈ entries, e.2.isFresh = true := by
  induction entries with
  | nil => simp [entriesAreFresh]
  | cons e entries ih => simp [entriesAreFresh, ih]

theorem Record.isFresh_iff (r : Record) :
    r.isFresh = true ↔
      r.extensions = [] ∧ r.unknown = [] ∧ ∀ f ∈ r.fields, f.2.isFresh = true := by
  obtain ⟨lineage, fields, extensions, extras, unknown⟩ := r
  simp only [Record.isFresh, Bool.and_eq_true, entriesAreFresh_iff, List.isEmpty_iff, and_assoc]
  rfl

mutual

/-- Whether there is no choice inside a form, and the object types in it are plain. -/
def Form.isPlain : Form → Bool
  | .list item => item.isPlain
  | .map item => item.isPlain
  | .object t => t.isPlain
  | _ => true
termination_by structural form => form

def Shape.isPlain : Shape → Bool
  | .required form => form.isPlain
  | .optional form => form.isPlain
  | .choice _ _ _ => false
termination_by structural shape => shape

def ObjectType.isPlain : ObjectType → Bool
  | .mk _ _ _ properties _ => propertiesArePlain properties
termination_by structural t => t

def Property.isPlain : Property → Bool
  | .mk _ _ shape initial => shape.isPlain && initial.isFresh
termination_by structural p => p

def propertiesArePlain : List Property → Bool
  | [] => true
  | p :: properties => p.isPlain && propertiesArePlain properties
termination_by structural properties => properties

end

theorem propertiesArePlain_iff (properties : List Property) :
    propertiesArePlain properties = true ↔
      ∀ p ∈ properties, p.shape.isPlain = true ∧ p.initial.isFresh = true := by
  induction properties with
  | nil => simp [propertiesArePlain]
  | cons p properties ih =>
      obtain ⟨key, field, shape, initial⟩ := p
      simp [propertiesArePlain, Property.isPlain, Property.shape, Property.initial, ih]

theorem ObjectType.isPlain_iff (t : ObjectType) :
    t.isPlain = true ↔ ∀ p ∈ t.properties, p.shape.isPlain = true ∧ p.initial.isFresh = true := by
  obtain ⟨lineage, extensionName, requiredFields, properties, derived⟩ := t
  exact propertiesArePlain_iff properties

namespace Schema

theorem isPlain_of_mem : ∀ t ∈ allTypes, t.isPlain = true := by
  decide

end Schema

namespace Options

/-- Whether the object types registered as handlers are all among those of glTF and of the
extensions read out of the box. -/
def BuiltIn (o : Options) : Prop :=
  ∀ key t, (key, Handler.record t) ∈ o.registry → t ∈ Schema.allTypes

theorem BuiltIn.of_handler? {o : Options} (ho : o.BuiltIn) {chain : List String} {name : String}
    {t : ObjectType} (h : o.handler? chain name = some (.record t)) : t ∈ Schema.allTypes := by
  obtain ⟨key, hmem⟩ := mem_registry_of_handler? h
  exact ho key t hmem

theorem builtIn_default : BuiltIn {} := fun _ _ hmem => mem_allTypes_of_default hmem

end Options

end Gltf
