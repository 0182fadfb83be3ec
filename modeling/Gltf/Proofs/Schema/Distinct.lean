import Gltf.Proofs.Schema.Regular
import Mathlib

/-!
Object types in which no field belongs to two properties, and neither does one in the object types
inside them. Regular types are such; keys and initial values do not matter.
-/

namespace Gltf

/-- The forms among which a shape leaves the choice. -/
def Shape.forms : Shape → List Form
  | .required form => [form]
  | .optional form => [form]
  | .choice forms _ _ => forms

/-- `Reaches form t`: in a value of the form, there may be objects of type `t`. -/
inductive Form.Reaches : Form → ObjectType → Prop
  | here (t : ObjectType) : Reaches (.object t) t
  | list {item : Shape} {form : Form} {t : ObjectType} (hform : form ∈ item.forms)
      (h : Reaches form t) : Reaches (.list item) t
  | map {item : Shape} {form : Form} {t : ObjectType} (hform : form ∈ item.forms)
      (h : Reaches form t) : Reaches (.map item) t
  | property {t inner : ObjectType} {p : Property} {form : Form} (hp : p ∈ t.properties)
      (hform : form ∈ p.shape.forms) (h : Reaches form inner) : Reaches (.object t) inner

/-- Whether no two properties of an object type inside a form set the same field. -/
def Form.FieldsDistinct (form : Form) : Prop :=
  ∀ t, form.Reaches t → (t.properties.map (·.field)).Nodup

namespace Form.FieldsDistinct

theorem fields {t : ObjectType} (h : (Form.object t).FieldsDistinct) :
    (t.properties.map (·.field)).Nodup := h t (.here t)

theorem of_list {item : Shape} (h : (Form.list item).FieldsDistinct) :
    ∀ form ∈ item.forms, form.FieldsDistinct := fun _ hform t ht => h t (.list hform ht)

theorem of_map {item : Shape} (h : (Form.map item).FieldsDistinct) :
    ∀ form ∈ item.forms, form.FieldsDistinct := fun _ hform t ht => h t (.map hform ht)

theorem of_property {t : ObjectType} {p : Property} (h : (Form.object t).FieldsDistinct)
    (hp : p ∈ t.properties) : ∀ form ∈ p.shape.forms, form.FieldsDistinct :=
  fun _ hform inner hinner => h inner (.property hp hform hinner)

end Form.FieldsDistinct

theorem Shape.isRegular_of_mem_forms {shape : Shape} (h : shape.isRegular = true) {form : Form}
    (hform : form ∈ shape.forms) : form.isRegular = true := by
  cases shape with
  | required form' => exact List.mem_singleton.1 hform ▸ h
  | optional form' => exact List.mem_singleton.1 hform ▸ h
  | choice forms text listsNull => exact (formsAreRegular_iff forms).1 h form hform

theorem Form.Reaches.isRegular {form : Form} {t : ObjectType} (ht : form.Reaches t)
    (h : form.isRegular = true) : t.isRegular = true := by
  induction ht with
  | here t => exact h
  | list hform _ ih => exact ih (Shape.isRegular_of_mem_forms h hform)
  | map hform _ ih => exact ih (Shape.isRegular_of_mem_forms h hform)
  | property hp hform _ ih =>
      exact ih (Shape.isRegular_of_mem_forms ((ObjectType.isRegular_iff _).1 h |>.2 _ hp).1 hform)

theorem Form.fieldsDistinct_of_isRegular {form : Form} (h : form.isRegular = true) :
    form.FieldsDistinct := fun t ht =>
  ((t.isRegular_iff.1 (ht.isRegular h)).1.fields).of_append_left

namespace Schema

theorem fieldsDistinct_of_mem {t : ObjectType} (ht : t ∈ allTypes) :
    (Form.object t).FieldsDistinct := Form.fieldsDistinct_of_isRegular (isRegular_of_mem t ht)

end Schema

namespace Options

/-- Whether no two properties set the same field in the object types registered as handlers. -/
def FieldsDistinct (o : Options) : Prop :=
  ∀ key t, (key, Handler.record t) ∈ o.registry → (Form.object t).FieldsDistinct

theorem FieldsDistinct.of_handler? {o : Options} (ho : o.FieldsDistinct) {chain : List String}
    {name : String} {t : ObjectType} (h : o.handler? chain name = some (.record t)) :
    (Form.object t).FieldsDistinct := by
  obtain ⟨key, hmem⟩ := mem_registry_of_handler? h
  exact ho key t hmem

theorem fieldsDistinct_default : FieldsDistinct {} :=
  fun _ _ hmem => Schema.fieldsDistinct_of_mem (mem_allTypes_of_default hmem)

end Options

end Gltf
