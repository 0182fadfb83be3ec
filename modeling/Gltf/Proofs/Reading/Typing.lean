import Gltf.Proofs.Reading.Equations
import Gltf.Proofs.Schema.Nulls
import Mathlib

/-!
Which values a schema gives to JSON values. A field holds a value of its shape, read from its key or
declared by the object type, at every depth; lists and maps hold the elements that fit; an extension
is a record of its handler's type, what a reader function made of it, or the JSON that stands there.
-/

namespace Gltf.Reading

mutual

/-- The values that a form gives to JSON values; `lax` admits null for choices that do not list
it. -/
inductive HasForm (o : Options) (lax : Bool) : Form → Json → Value → Prop
  | bool (b : Bool) : HasForm o lax .bool (.bool b) (.ofBool b)
  | string (s : String) : HasForm o lax .string (.string s) (.ofString s)
  | integer {kind : NumberKind} {low high : Int} {n : Number} {i : Int}
      (range : kind.range = .integers low high) (value : n.toInt? = some i) (least : low ≤ i)
      (greatest : i ≤ high) : HasForm o lax (.number kind) (.number n) (.ofInt i)
  | real {kind : NumberKind} {low high : Binary64} {n : Number}
      (range : kind.range = .floats low high) (finite : n.toFloat.isFinite = true)
      (least : low.le n.toFloat = true) (greatest : n.toFloat.le high = true) :
      HasForm o lax (.number kind) (.number n) (.ofFloat n.toFloat)
  | intEnum {e : IntEnum} {n : Number} {i : Int} (value : n.toInt? = some i)
      (member : i ∈ e.members) : HasForm o lax (.intEnum e) (.number n) (.ofInt i)
  | stringEnum {e : StringEnum} {s : String} (member : s ∈ e.members) :
      HasForm o lax (.stringEnum e) (.string s) (.ofString s)
  | any (j : Json) : HasForm o lax .any j (.json j)
  | list {item : Shape} {values : List Json} {items : List Value}
      (h : HasItems o lax item values items) :
      HasForm o lax (.list item) (.array values) (.list items)
  | map {item : Shape} {members : List (String × Json)} {entries : List (String × Value)}
      (h : HasEntries o lax item members entries) :
      HasForm o lax (.map item) (.object members) (.map entries)
  | object {t : ObjectType} {members : List (String × Json)} {r : Record}
      (h : IsInstance o lax t members r) : HasForm o lax (.object t) (.object members) (.record r)

inductive HasShape (o : Options) (lax : Bool) : Shape → Json → Value → Prop
  | required {form : Form} {j : Json} {v : Value} (h : HasForm o lax form j v) :
      HasShape o lax (.required form) j v
  | absent (form : Form) : HasShape o lax (.optional form) .null .null
  | optional {form : Form} {j : Json} {v : Value} (h : HasForm o lax form j v) :
      HasShape o lax (.optional form) j v
  | choice {forms : List Form} {text : String} {listsNull : Bool} {form : Form} {j : Json}
      {v : Value} (member : form ∈ forms) (h : HasForm o lax form j v) :
      HasShape o lax (.choice forms text listsNull) j v
  | listedNull (forms : List Form) (text : String) :
      HasShape o lax (.choice forms text true) .null .null
  | unlistedNull (forms : List Form) (text : String) (listsNull : Bool) (h : lax = true) :
      HasShape o lax (.choice forms text listsNull) .null .null

/-- Items of a list in their order; those that do not fit are left out. -/
inductive HasItems (o : Options) (lax : Bool) : Shape → List Json → List Value → Prop
  | nil (item : Shape) : HasItems o lax item [] []
  | keep {item : Shape} {j : Json} {v : Value} {values : List Json} {items : List Value}
      (head : HasShape o lax item j v) (tail : HasItems o lax item values items) :
      HasItems o lax item (j :: values) (v :: items)
  | drop {item : Shape} {values : List Json} {items : List Value} (j : Json)
      (tail : HasItems o lax item values items) : HasItems o lax item (j :: values) items

inductive HasEntries (o : Options) (lax : Bool) :
    Shape → List (String × Json) → List (String × Value) → Prop
  | nil (item : Shape) : HasEntries o lax item [] []
  | keep {item : Shape} {j : Json} {v : Value} {members : List (String × Json)}
      {entries : List (String × Value)} (key : String) (head : HasShape o lax item j v)
      (tail : HasEntries o lax item members entries) :
      HasEntries o lax item ((key, j) :: members) ((key, v) :: entries)
  | drop {item : Shape} {members : List (String × Json)} {entries : List (String × Value)}
      (m : String × Json) (tail : HasEntries o lax item members entries) :
      HasEntries o lax item (m :: members) entries

/-- Records of an object type that an object with these members gives. -/
inductive IsInstance (o : Options) (lax : Bool) : ObjectType → List (String × Json) → Record → Prop
  | mk {t : ObjectType} {members : List (String × Json)} {r : Record}
      (lineage : r.lineage = t.lineage)
      (names : r.fields.map (·.1) = t.properties.map (·.field) ++ t.derived)
      (fields : ∀ f ∈ r.fields, HasField o lax t members f.1 f.2)
      (extensions : ∀ e ∈ r.extensions, HasExtension o lax t.lineage.chain members e.1 e.2) :
      IsInstance o lax t members r

/-- A field was read from its key or is as it was to begin with. The initial values of the object
types of glTF and of the extensions read out of the box fit their shapes. -/
inductive HasField (o : Options) (lax : Bool) :
    ObjectType → List (String × Json) → String → Value → Prop
  | read {t : ObjectType} {members : List (String × Json)} {p : Property} {j : Json} {v : Value}
      (property : p ∈ t.properties) (member : (p.key, j) ∈ members)
      (h : HasShape o lax p.shape j v) :
      HasField o lax t members p.field v
  | initial {t : ObjectType} {p : Property} {j : Json} (members : List (String × Json))
      (property : p ∈ t.properties) (h : HasShape o lax p.shape j p.initial) :
      HasField o lax t members p.field p.initial
  | declared {t : ObjectType} {p : Property} (members : List (String × Json))
      (property : p ∈ t.properties) (foreign : t ∉ Schema.allTypes) :
      HasField o lax t members p.field p.initial
  | derived {t : ObjectType} {name : String} (members : List (String × Json))
      (h : name ∈ t.derived) :
      HasField o lax t members name .null

/-- The extensions of an object of the given kinds with these members. -/
inductive HasExtension (o : Options) (lax : Bool) :
    List String → List (String × Json) → String → Value → Prop
  | raw {chain : List String} {members entries : List (String × Json)} {name : String} {j : Json}
      (block : ("extensions", .object entries) ∈ members) (entry : (name, j) ∈ entries) :
      HasExtension o lax chain members name (.json j)
  | record {chain : List String} {members entries inner : List (String × Json)} {name : String}
      {t : ObjectType} {r : Record} (block : ("extensions", .object entries) ∈ members)
      (entry : (name, .object inner) ∈ entries) (handler : o.handler? chain name = some (.record t))
      (h : IsInstance o lax t inner r) : HasExtension o lax chain members name (.record r)
  | function {chain : List String} {members entries inner : List (String × Json)}
      {name function : String} {read : List (String × Json) → Except String Reported}
      {reported : Reported} {v : Value} (block : ("extensions", .object entries) ∈ members)
      (entry : (name, .object inner) ∈ entries)
      (handler : o.handler? chain name = some (.function function read))
      (call : read inner = .ok reported) (value : reported.value = some v) :
      HasExtension o lax chain members name v

end

section
variable {o : Options} {lax : Bool}

theorem hasForm_number {kind : NumberKind} {n n' : Number} (h : n.coerce? kind = some n') :
    HasForm o lax (.number kind) (.number n) (.json (.number n')) := by
  rw [Number.coerce?] at h
  split at h
  · rename_i low high hrange
    split at h
    · rename_i i hi
      split_ifs at h with hbounds
      cases h
      exact .integer hrange hi hbounds.1 hbounds.2
    · cases h
  · rename_i low high hrange
    dsimp only at h
    split_ifs at h with hbounds
    cases h
    exact .real hrange hbounds.1 hbounds.2.1 hbounds.2.2

/-! ### Initial values -/

/-- Whether the initial value of a property is a value of its shape. -/
def InitialFits (o : Options) (lax : Bool) (p : Property) : Prop :=
  ∃ j, HasShape o lax p.shape j p.initial

def InitialsFit (o : Options) (lax : Bool) (t : ObjectType) : Prop :=
  ∀ p ∈ t.properties, InitialFits o lax p

@[simp] theorem initialsFit_mk (lineage : Lineage) (extensionName : String)
    (requiredFields : List String) (properties : List Property) (derived : List String) :
    InitialsFit o lax (.mk lineage extensionName requiredFields properties derived) ↔
      ∀ p ∈ properties, InitialFits o lax p := Iff.rfl

theorem isInstance_blank {t : ObjectType} (members : List (String × Json))
    (h : t ∈ Schema.allTypes → InitialsFit o lax t) :
    IsInstance o lax t members t.blank := by
  refine ⟨rfl, ?_, ?_, ?_⟩
  · simp [ObjectType.blank, Record.fields, Function.comp_def]
  · intro f hf
    simp only [ObjectType.blank, Record.fields, List.mem_append, List.mem_map] at hf
    rcases hf with ⟨p, hp, rfl⟩ | ⟨name, hname, rfl⟩
    · by_cases ht : t ∈ Schema.allTypes
      · obtain ⟨j, hj⟩ := h ht p hp
        exact .initial members hp hj
      · exact .declared members hp ht
    · exact .derived members hname
  · intro e he
    cases he

end

end Gltf.Reading

namespace Gltf.Schema

open Reading

variable {o : Options} {lax : Bool}

@[simp] theorem initialFits_optional (key field : String) (form : Form) :
    InitialFits o lax (optional key field form) := ⟨.null, .absent form⟩

@[simp] theorem initialFits_integer {key field : String} {kind : NumberKind} {n : Int}
    (h : (Number.int n).coerce? kind = some (.int n)) :
    InitialFits o lax (integer key field (.number kind) n) :=
  ⟨.number (.int n), .required (hasForm_number h)⟩

theorem hasForm_real {x : Binary64} (h : (Number.float x).coerce? .float64 = some (.float x)) :
    HasForm o lax real (.number (.float x)) (.ofFloat x) := hasForm_number h

@[simp] theorem initialFits_number {key field : String} {x : Binary64}
    (h : (Number.float x).coerce? .float64 = some (.float x)) :
    InitialFits o lax (number key field x) :=
  ⟨.number (.float x), .required (hasForm_real h)⟩

@[simp] theorem initialFits_flag (key field : String) : InitialFits o lax (flag key field) :=
  ⟨.bool false, .required (.bool false)⟩

@[simp] theorem initialFits_text (key field : String) : InitialFits o lax (text key field) :=
  ⟨.string "", .required (.string "")⟩

@[simp] theorem initialFits_numbers {key field : String} {xs : List Binary64}
    (h : ∀ x ∈ xs, (Number.float x).coerce? .float64 = some (.float x)) :
    InitialFits o lax (numbers key field xs) := by
  refine ⟨.array (xs.map fun x => .number (.float x)), .required (.list ?_)⟩
  induction xs with
  | nil => exact .nil _
  | cons x xs ih =>
      refine .keep (.required (hasForm_real (h x List.mem_cons_self))) ?_
      exact ih fun x hx => h x (List.mem_cons_of_mem _ hx)

@[simp] theorem initialFits_listOf (key field : String) (form : Form) :
    InitialFits o lax (listOf key field form) :=
  ⟨.array [], .required (.list (.nil _))⟩

@[simp] theorem initialFits_indexMap (key field : String) :
    InitialFits o lax (indexMap key field) :=
  ⟨.object [], .required (.map (.nil _))⟩

@[simp] theorem initialFits_part {key field : String} {t : ObjectType} (h : InitialsFit o lax t) :
    InitialFits o lax (part key field t) :=
  ⟨.object [], .required (.object (isInstance_blank [] fun _ => h))⟩

@[simp] theorem initialFits_intMember {key field : String} {e : IntEnum} {n : Int}
    (h : n ∈ e.members) :
    InitialFits o lax (intMember key field e n) :=
  ⟨.number (.int n), .required (.intEnum rfl h)⟩

@[simp] theorem initialFits_stringMember {key field : String} {e : StringEnum} {s : String}
    (h : s ∈ e.members) : InitialFits o lax (stringMember key field e s) :=
  ⟨.string s, .required (.stringEnum h)⟩

theorem initialsFit_asset : InitialsFit o lax asset := by
  simp [asset, objectType]

theorem initialsFit_sparseIndices : InitialsFit o lax sparseIndices := by
  simp +decide [sparseIndices, objectType, index, size]

theorem initialsFit_sparseValues : InitialsFit o lax sparseValues := by
  simp +decide [sparseValues, objectType, index, size]

theorem initialsFit_sparse : InitialsFit o lax sparse := by
  simp +decide [sparse, objectType, size, initialsFit_sparseIndices, initialsFit_sparseValues]

theorem initialsFit_animationChannelTarget : InitialsFit o lax animationChannelTarget := by
  simp [animationChannelTarget, objectType]

theorem initialsFit_animationChannel : InitialsFit o lax animationChannel := by
  simp +decide [animationChannel, objectType, index, initialsFit_animationChannelTarget]

theorem initialsFit_root : InitialsFit o lax root := by
  simp [root, objectType, initialsFit_asset]

theorem initialsFit_coreTypes : ∀ t ∈ coreTypes, InitialsFit o lax t := by
  simp +decide [coreTypes, initialsFit_asset, initialsFit_sparseIndices, initialsFit_sparseValues,
    initialsFit_sparse, initialsFit_animationChannelTarget, initialsFit_animationChannel,
    initialsFit_root, base, accessor, animationSampler, animation, buffer, bufferView,
    cameraOrthographic, cameraPerspective, camera, image, textureInfoProperties, textureInfo,
    normalTextureInfo, occlusionTextureInfo, pbrMetallicRoughness, material, meshPrimitive, mesh,
    node, sampler, scene, skin, texture, objectType, name, index, size]

theorem initialsFit_extensionTypes : ∀ t ∈ extensionTypes, InitialsFit o lax t := by
  simp +decide [extensionTypes, cesiumRtc, dracoMeshCompression, meshoptCompression,
    meshoptCompressionBuffer, textureBasisu, textureTransform, materialsUnlit, meshGpuInstancing,
    extensionType, index, size]

theorem initialsFit_of_mem {t : ObjectType} (ht : t ∈ allTypes) : InitialsFit o lax t := by
  rcases List.mem_append.1 ht with ht | ht
  · exact initialsFit_coreTypes t ht
  · exact initialsFit_extensionTypes t ht

end Gltf.Schema
