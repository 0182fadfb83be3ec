import Gltf.Document
import Gltf.Proofs.Reading.WellTyped
import Gltf.Proofs.Table
import Mathlib

/-!
What the fields of a record hold once it is read: values of the declared shape, for the object types
that there are, and null in what is derived later.
-/

namespace Gltf.Reading

section
variable {o : Options} {lax : Bool} {t : ObjectType} {members : List (String × Json)} {r : Record}
  {name : String} {v : Value}

/-- An object is always read as a record of the type, whatever is found in it. -/
theorem exists_isInstance (o : Options) (t : ObjectType) (path : Path)
    (members : List (String × Json)) :
    ∃ r findings, readRecord o t path (.object members) = (some r, findings) ∧
      IsInstance o true t members r := by
  obtain ⟨r, findings, hform⟩ : ∃ r findings,
      readForm o path (.object t) (.object members) = ⟨some (.record r), findings⟩ :=
    ⟨_, _, readForm_object_object o path t members⟩
  refine ⟨r, findings, by simp [readRecord, hform, Value.record?], ?_⟩
  cases (typed (.inl rfl) (.object members)).1 path (.object t) (.record r) (.inl rfl)
    (by rw [hform]) with
  | object hinstance => exact hinstance

theorem isInstance_of_object {o : Options} {t : ObjectType} {path : Path}
    {members : List (String × Json)} {r : Record} {findings : List Finding}
    (h : readRecord o t path (.object members) = (some r, findings)) :
    IsInstance o true t members r := by
  obtain ⟨r', findings', hread, hinstance⟩ := exists_isInstance o t path members
  rw [h, Prod.mk.injEq, Option.some.injEq] at hread
  exact hread.1 ▸ hinstance

/-- A field that is there was read or is as it was declared. -/
theorem IsInstance.field (h : IsInstance o lax t members r) (name : String) :
    r.field name = .null ∨ HasField o lax t members name (r.field name) := by
  obtain ⟨-, -, hfields, -⟩ := h
  rw [Record.field]
  cases hfound : Table.get? r.fields name with
  | none => exact .inl rfl
  | some v => exact .inr (hfields _ (Table.mem_of_get? hfound))

theorem hasShape_of_hasField {p : Property} (ht : t ∈ Schema.allTypes)
    (hderived : name ∉ t.derived) (hp : ∀ q ∈ t.properties, q.field = name → q = p)
    (h : HasField o lax t members name v) : ∃ j, HasShape o lax p.shape j v := by
  cases h with
  | read property member h =>
      obtain rfl := hp _ property rfl
      exact ⟨_, h⟩
  | initial members property h =>
      obtain rfl := hp _ property rfl
      exact ⟨_, h⟩
  | declared members property foreign => exact absurd ht foreign
  | derived members h => exact absurd h hderived

theorem eq_null_of_hasField (hname : ∀ p ∈ t.properties, p.field ≠ name)
    (h : HasField o lax t members name v) : v = .null := by
  cases h with
  | read property member h => exact absurd rfl (hname _ property)
  | initial members property h => exact absurd rfl (hname _ property)
  | declared members property foreign => exact absurd rfl (hname _ property)
  | derived members h => rfl

theorem exists_hasShape_of_mem {item : Shape} {values : List Json} {items : List Value}
    (h : HasItems o lax item values items) (hv : v ∈ items) : ∃ j, HasShape o lax item j v := by
  induction values generalizing items with
  | nil =>
      cases h
      cases hv
  | cons j values ih =>
      cases h with
      | keep head tail =>
          rcases List.mem_cons.1 hv with rfl | hv
          · exact ⟨j, head⟩
          · exact ih tail hv
      | drop _ tail => exact ih tail hv

/-- The records of a list of objects. -/
theorem isInstance_of_mem_recordsField {key : String} {t' : ObjectType} {r' : Record}
    (ht : t ∈ Schema.allTypes) (hderived : name ∉ t.derived)
    (hp : ∀ q ∈ t.properties, q.field = name → q = Schema.listOf key name (.object t'))
    (h : IsInstance o lax t members r) (hr' : r' ∈ r.recordsField name) :
    ∃ members', IsInstance o lax t' members' r' := by
  obtain ⟨v, hv, rfl⟩ := List.mem_map.1 hr'
  rcases h.field name with hnull | hfield
  · rw [hnull] at hv
    cases hv
  · obtain ⟨j, hshape⟩ := hasShape_of_hasField ht hderived hp hfield
    generalize r.field name = list at hv hshape
    cases hshape with
    | required hform =>
        cases hform with
        | list hitems =>
            obtain ⟨j', hitem⟩ := exists_hasShape_of_mem hitems hv
            cases hitem with
            | required hrecord =>
                cases hrecord with
                | object hinstance => exact ⟨_, hinstance⟩

end

/-! ### Buffers -/

theorem data_ofRecord {o : Options} {lax : Bool} {members : List (String × Json)} {r : Record}
    (h : IsInstance o lax Schema.buffer members r) : (Buffer.ofRecord r).data = none := by
  have hnames : ∀ p ∈ Schema.buffer.properties, p.field ≠ "data" := by
    simp [Schema.buffer, ObjectType.properties, Schema.optional, Schema.integer, Schema.name,
      Property.field]
  have hnull : r.field "data" = .null := by
    rcases h.field "data" with hnull | hfield
    · exact hnull
    · exact eq_null_of_hasField hnames hfield
  rw [Buffer.ofRecord, hnull]
  rfl

/-- No buffer has content before the resources are brought in. -/
theorem data_of_mem_buffers {o : Options} {lax : Bool} {members : List (String × Json)}
    {r : Record} (h : IsInstance o lax Schema.root members r) {b : Buffer}
    (hb : b ∈ (Document.ofRecord r).buffers) : b.data = none := by
  obtain ⟨r', hr', rfl⟩ := List.mem_map.1 hb
  have hroot : Schema.root ∈ Schema.allTypes := by
    simp [Schema.allTypes, Schema.coreTypes]
  have hlist : ∀ q ∈ Schema.root.properties, q.field = "buffers" →
      q = Schema.listOf "buffers" "buffers" (.object Schema.buffer) := by
    simp [Schema.root, Schema.objectType, ObjectType.properties, Schema.listOf, Schema.optional,
      Schema.part, Property.field]
  obtain ⟨members', hinstance⟩ :=
    isInstance_of_mem_recordsField hroot List.not_mem_nil hlist h hr'
  exact data_ofRecord hinstance

/-! ### Images -/

theorem image_ofRecord {o : Options} {lax : Bool} {members : List (String × Json)} {r : Record}
    (h : IsInstance o lax Schema.image members r) : (ImageSource.ofRecord r).image = none := by
  have hnames : ∀ p ∈ Schema.image.properties, p.field ≠ "image_data" := by
    simp [Schema.image, ObjectType.properties, Schema.optional, Schema.name, Property.field]
  have hnull : r.field "image_data" = .null := by
    rcases h.field "image_data" with hnull | hfield
    · exact hnull
    · exact eq_null_of_hasField hnames hfield
  rw [ImageSource.ofRecord, hnull]
  rfl

/-- No image has pixels before the resources are brought in. -/
theorem image_of_mem_images {o : Options} {lax : Bool} {members : List (String × Json)}
    {r : Record} (h : IsInstance o lax Schema.root members r) {i : ImageSource}
    (hi : i ∈ (Document.ofRecord r).images) : i.image = none := by
  obtain ⟨r', hr', rfl⟩ := List.mem_map.1 hi
  have hroot : Schema.root ∈ Schema.allTypes := by
    simp [Schema.allTypes, Schema.coreTypes]
  have hlist : ∀ q ∈ Schema.root.properties, q.field = "images" →
      q = Schema.listOf "images" "images" (.object Schema.image) := by
    simp [Schema.root, Schema.objectType, ObjectType.properties, Schema.listOf, Schema.optional,
      Schema.part, Property.field]
  obtain ⟨members', hinstance⟩ :=
    isInstance_of_mem_recordsField hroot List.not_mem_nil hlist h hr'
  exact image_ofRecord hinstance

end Gltf.Reading
