import Gltf.Options
import Gltf.Proofs.Schema.Nulls
import Mathlib

/-!
Object types that give each key one field. Keys are distinct, none is `extensions` or `extras`, none
is the name of another property's field, fields are distinct, and the initial values carry no extras
and no unknown members. The types of glTF and of the extensions read out of the box are such.
-/

namespace Gltf

mutual

/-- Whether the records in a value carry neither extras nor unknown members. -/
def Value.isBare : Value → Bool
  | .json _ => true
  | .list items => itemsAreBare items
  | .map entries => entriesAreBare entries
  | .record r => r.isBare
  | .bytes _ => true
termination_by structural v => v

def Record.isBare : Record → Bool
  | .mk _ fields extensions extras unknown =>
      decide (extras.kind = .null) && unknown.isEmpty && entriesAreBare fields &&
        entriesAreBare extensions
termination_by structural r => r

def itemsAreBare : List Value → Bool
  | [] => true
  | v :: items => v.isBare && itemsAreBare items
termination_by structural items => items

def entriesAreBare : List (String × Value) → Bool
  | [] => true
  | (_, v) :: entries => v.isBare && entriesAreBare entries
termination_by structural entries => entries

end

theorem Json.kind_eq_null_iff (j : Json) : j.kind = .null ↔ j = .null := by
  constructor
  · intro h
    cases j with
    | null => rfl
    | number n => cases n <;> cases h
    | _ => cases h
  · rintro rfl
    rfl

theorem itemsAreBare_iff (items : List Value) :
    itemsAreBare items = true ↔ ∀ v ∈ items, v.isBare = true := by
  induction items with
  | nil => simp [itemsAreBare]
  | cons v items ih => simp [itemsAreBare, ih]

theorem entriesAreBare_iff (entries : List (String × Value)) :
    entriesAreBare entries = true ↔ ∀ e ∈ entries, e.2.isBare = true := by
  induction entries with
  | nil => simp [entriesAreBare]
  | cons e entries ih => simp [entriesAreBare, ih]

theorem Record.isBare_iff (r : Record) :
    r.isBare = true ↔ r.extras = .null ∧ r.unknown = [] ∧
      (∀ f ∈ r.fields, f.2.isBare = true) ∧ ∀ e ∈ r.extensions, e.2.isBare = true := by
  obtain ⟨lineage, fields, extensions, extras, unknown⟩ := r
  rw [Record.isBare]
  simp only [Bool.and_eq_true, entriesAreBare_iff, List.isEmpty_iff, and_assoc, decide_eq_true_eq,
    Json.kind_eq_null_iff]
  rfl

/-- Properties that have a key and a field each to themselves. -/
structure Separate (properties : List Property) (derived : List String) : Prop where
  keys : (properties.map (·.key)).Nodup
  fields : (properties.map (·.field) ++ derived).Nodup
  extensions : "extensions" ∉ properties.map (·.key)
  extras : "extras" ∉ properties.map (·.key)
  /-- A key may have the name of a field, but of no other property's. -/
  own : ∀ p ∈ properties, ∀ q ∈ properties, p.key = q.field → p.field = q.field

theorem separate_iff (properties : List Property) (derived : List String) :
    Separate properties derived ↔
      (properties.map (·.key)).Nodup ∧ (properties.map (·.field) ++ derived).Nodup ∧
        "extensions" ∉ properties.map (·.key) ∧ "extras" ∉ properties.map (·.key) ∧
          ∀ p ∈ properties, ∀ q ∈ properties, p.key = q.field → p.field = q.field :=
  ⟨fun h => ⟨h.keys, h.fields, h.extensions, h.extras, h.own⟩,
    fun ⟨keys, fields, extensions, extras, own⟩ => ⟨keys, fields, extensions, extras, own⟩⟩

instance (properties : List Property) (derived : List String) :
    Decidable (Separate properties derived) :=
  decidable_of_iff _ (separate_iff properties derived).symm

mutual

/-- Whether the object types inside a form are regular. -/
def Form.isRegular : Form → Bool
  | .list item => item.isRegular
  | .map item => item.isRegular
  | .object t => t.isRegular
  | _ => true
termination_by structural form => form

def Shape.isRegular : Shape → Bool
  | .required form => form.isRegular
  | .optional form => form.isRegular
  | .choice forms _ _ => formsAreRegular forms
termination_by structural shape => shape

def formsAreRegular : List Form → Bool
  | [] => true
  | form :: forms => form.isRegular && formsAreRegular forms
termination_by structural forms => forms

def ObjectType.isRegular : ObjectType → Bool
  | .mk _ _ _ properties derived =>
      decide (Separate properties derived) && propertiesAreRegular properties
termination_by structural t => t

def Property.isRegular : Property → Bool
  | .mk _ _ shape initial => shape.isRegular && initial.isBare
termination_by structural p => p

def propertiesAreRegular : List Property → Bool
  | [] => true
  | p :: properties => p.isRegular && propertiesAreRegular properties
termination_by structural properties => properties

end

theorem formsAreRegular_iff (forms : List Form) :
    formsAreRegular forms = true ↔ ∀ form ∈ forms, form.isRegular = true := by
  induction forms with
  | nil => simp [formsAreRegular]
  | cons form forms ih => simp [formsAreRegular, ih]

theorem propertiesAreRegular_iff (properties : List Property) :
    propertiesAreRegular properties = true ↔
      ∀ p ∈ properties, p.shape.isRegular = true ∧ p.initial.isBare = true := by
  induction properties with
  | nil => simp [propertiesAreRegular]
  | cons p properties ih =>
      obtain ⟨key, field, shape, initial⟩ := p
      simp [propertiesAreRegular, Property.isRegular, Property.shape, Property.initial, ih]

theorem ObjectType.isRegular_iff (t : ObjectType) :
    t.isRegular = true ↔ Separate t.properties t.derived ∧
      ∀ p ∈ t.properties, p.shape.isRegular = true ∧ p.initial.isBare = true := by
  obtain ⟨lineage, extensionName, requiredFields, properties, derived⟩ := t
  rw [ObjectType.isRegular, Bool.and_eq_true, propertiesAreRegular_iff, decide_eq_true_iff]
  rfl

namespace Schema

theorem isRegular_of_mem : ∀ t ∈ allTypes, t.isRegular = true := by
  decide +kernel

end Schema

namespace Options

/-- Whether the object types registered as handlers are regular. -/
def Regular (o : Options) : Prop :=
  ∀ key t, (key, Handler.record t) ∈ o.registry → t.isRegular = true

theorem Regular.of_handler? {o : Options} (ho : o.Regular) {chain : List String} {name : String}
    {t : ObjectType} (h : o.handler? chain name = some (.record t)) : t.isRegular = true := by
  obtain ⟨key, hmem⟩ := mem_registry_of_handler? h
  exact ho key t hmem

theorem regular_default : Regular {} :=
  fun _ t hmem => Schema.isRegular_of_mem t (mem_allTypes_of_default hmem)

end Options

end Gltf
