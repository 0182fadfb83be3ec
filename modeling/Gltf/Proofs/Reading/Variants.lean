import Gltf.Proofs.Json.Variations
import Gltf.Proofs.Reading.Frame
import Gltf.Proofs.Schema.Distinct
import Gltf.Proofs.Table
import Mathlib

/-!
What is read from a document and from the same one written in another way. Typed values are equal;
what is kept as it stands is written in the other way, and what has keys may have them in another
order. Outcomes are put together from such parts in the same way on both sides.
-/

namespace Gltf

/-- The same finding; where numbers are written in another way, its text may be another. -/
structure Finding.Varies (v : Variation) (f f' : Finding) : Prop where
  scope : f.scope = f'.scope
  path : f.path = f'.path
  severity : f.severity = f'.severity
  same : v.retypes = false → f = f'

namespace Finding.Varies

variable {v : Variation} {f f' : Finding}

theorem refl (v : Variation) (f : Finding) : f.Varies v f := ⟨rfl, rfl, rfl, fun _ => rfl⟩

theorem within (h : f.Varies v f') (name : String) : (f.within name).Varies v (f'.within name) :=
  ⟨congrArg (name :: ·) h.scope, h.path, h.severity, fun hv => by rw [h.same hv]⟩

end Finding.Varies

namespace Reading

open Table (Keyed forall₂_keyed_iff)

mutual

/-- What a form makes of a value and of the same value written in another way. -/
inductive FormVaries (v : Variation) (o : Options) : Form → Value → Value → Prop
  | same (form : Form) (j : Json) : FormVaries v o form (.json j) (.json j)
  | verbatim {j j' : Json} (h : j.Varies v j') : FormVaries v o .any (.json j) (.json j')
  | list {item : Shape} {as bs : List Value} (length : as.length = bs.length)
      (items : ∀ pair ∈ as.zip bs, ShapeVaries v o item pair.1 pair.2) :
      FormVaries v o (.list item) (.list as) (.list bs)
  | map {item : Shape} {as mid bs : List (String × Value)} (keys : as.map (·.1) = mid.map (·.1))
      (values : ∀ pair ∈ as.zip mid, ShapeVaries v o item pair.1.2 pair.2.2)
      (order : v.Ordered mid bs) : FormVaries v o (.map item) (.map as) (.map bs)
  | record {t : ObjectType} {r r' : Record} (h : RecordVaries v o t r r') :
      FormVaries v o (.object t) (.record r) (.record r')

inductive ShapeVaries (v : Variation) (o : Options) : Shape → Value → Value → Prop
  | same (shape : Shape) (a : Value) : ShapeVaries v o shape a a
  | form {shape : Shape} {form : Form} {a b : Value} (member : form ∈ shape.forms)
      (h : FormVaries v o form a b) : ShapeVaries v o shape a b

/-- A field that is read has the shape of its property; any other one is equal. -/
inductive FieldVaries (v : Variation) (o : Options) : ObjectType → String → Value → Value → Prop
  | same (t : ObjectType) (name : String) (a : Value) : FieldVaries v o t name a a
  | property {t : ObjectType} {p : Property} {a b : Value} (property : p ∈ t.properties)
      (h : ShapeVaries v o p.shape a b) : FieldVaries v o t p.field a b

/-- An extension of an object of the given kinds is kept as it stands or read by its handler. -/
inductive ExtensionVaries (v : Variation) (o : Options) : List String → String → Value → Value → Prop
  | verbatim {j j' : Json} (chain : List String) (name : String) (h : j.Varies v j') :
      ExtensionVaries v o chain name (.json j) (.json j')
  | handled {chain : List String} {name : String} {t : ObjectType} {a b : Value}
      (handler : o.handler? chain name = some (.record t)) (h : FormVaries v o (.object t) a b) :
      ExtensionVaries v o chain name a b

inductive RecordVaries (v : Variation) (o : Options) : ObjectType → Record → Record → Prop
  | mk {t : ObjectType} {r r' : Record} {mid : Table String Value} (lineage : r.lineage = r'.lineage)
      (names : r.fields.map (·.1) = r'.fields.map (·.1))
      (fields : ∀ pair ∈ r.fields.zip r'.fields, FieldVaries v o t pair.1.1 pair.1.2 pair.2.2)
      (extension_names : r.extensions.map (·.1) = mid.map (·.1))
      (extensions : ∀ pair ∈ r.extensions.zip mid,
        ExtensionVaries v o t.lineage.chain pair.1.1 pair.1.2 pair.2.2)
      (order : v.Ordered mid r'.extensions) (extras : r.extras.Varies v r'.extras)
      (unknown : v.Pairs (Keyed fun _ => Json.Varies v) r.unknown r'.unknown) :
      RecordVaries v o t r r'

end

section
variable {v : Variation} {o : Options}

theorem formVaries_list {item : Shape} {as bs : List Value}
    (h : List.Forall₂ (ShapeVaries v o item) as bs) :
    FormVaries v o (.list item) (.list as) (.list bs) := by
  obtain ⟨hlength, hitems⟩ := List.forall₂_iff_zip.1 h
  exact .list hlength fun _ hpair => hitems hpair

theorem formVaries_map {item : Shape} {as bs : List (String × Value)}
    (h : v.Pairs (Keyed fun _ => ShapeVaries v o item) as bs) :
    FormVaries v o (.map item) (.map as) (.map bs) := by
  obtain ⟨mid, hpairs, horder⟩ := h
  obtain ⟨hkeys, hvalues⟩ := forall₂_keyed_iff.1 hpairs
  exact .map hkeys hvalues horder

theorem rel_record? {t : ObjectType} {a b : Option Value}
    (h : Option.Rel (FormVaries v o (.object t)) a b) :
    Option.Rel (RecordVaries v o t) (a.bind Value.record?) (b.bind Value.record?) := by
  cases h with
  | none => exact .none
  | some h =>
      cases h with
      | same => exact .none
      | record h => exact .some h

/-! ### Outcomes -/

/-- What was read and what was found, on both sides. -/
structure Outcome.Varies (v : Variation) (R : Value → Value → Prop) (a b : Outcome) : Prop where
  value : Option.Rel R a.value b.value
  findings : v.Pairs (Finding.Varies v) a.findings b.findings

section
variable {R S : Value → Value → Prop} {a b : Outcome}

theorem varies_accept {x y : Value} (h : R x y) :
    (Outcome.accept x).Varies v R (Outcome.accept y) := ⟨.some h, .nil⟩

theorem pairs_problem (path : Path) {problem problem' : Problem}
    (hseverity : problem.severity = problem'.severity)
    (hsame : v.retypes = false → problem = problem') :
    v.Pairs (Finding.Varies v) [.ofPath path problem] [.ofPath path problem'] :=
  .of_forall₂ (.cons ⟨rfl, rfl, hseverity, fun hv => by rw [hsame hv]⟩ .nil)

theorem varies_refuse (path : Path) {problem problem' : Problem}
    (hseverity : problem.severity = problem'.severity)
    (hsame : v.retypes = false → problem = problem') :
    (Outcome.refuse path problem).Varies v R (Outcome.refuse path problem') :=
  ⟨.none, pairs_problem path hseverity hsame⟩

theorem rel_imp (himp : ∀ x y, R x y → S x y) {x y : Option Value} (h : Option.Rel R x y) :
    Option.Rel S x y := by
  cases h with
  | some hxy => exact .some (himp _ _ hxy)
  | none => exact .none

theorem Outcome.Varies.imp (himp : ∀ x y, R x y → S x y) (h : a.Varies v R b) : a.Varies v S b :=
  ⟨rel_imp himp h.value, h.findings⟩

/-- One side is clean exactly if the other is. -/
theorem Outcome.Varies.clean? (h : a.Varies v R b) : Option.Rel R a.clean? b.clean? := by
  rw [Outcome.clean?, Outcome.clean?, ← h.findings.isEmpty_eq]
  split_ifs
  · exact h.value
  · exact .none

theorem varies_assembleList {item : Shape} {as bs : List Outcome}
    (h : List.Forall₂ (Outcome.Varies v (ShapeVaries v o item)) as bs) :
    (assembleList as).Varies v (FormVaries v o (.list item)) (assembleList bs) := by
  refine ⟨.some (formVaries_list ?_), .flatMap h fun _ _ hab => hab.findings⟩
  exact List.rel_filterMap (fun _ _ hab => hab.value) h

/-- The entries on both sides, with what was found in them. -/
theorem pairs_presentEntries {R : String → Value → Value → Prop}
    {as mid bs : List (String × Outcome)}
    (h : List.Forall₂ (Keyed fun key => Outcome.Varies v (R key)) as mid)
    (horder : v.Ordered mid bs) :
    v.Pairs (Keyed R) (presentEntries as) (presentEntries bs) ∧
      v.Pairs (Finding.Varies v) (as.flatMap (·.2.findings)) (bs.flatMap (·.2.findings)) := by
  constructor
  · refine ⟨presentEntries mid, List.rel_filterMap ?_ h, horder.filterMap _⟩
    rintro ⟨key, a, findings⟩ ⟨_, b, findings'⟩ ⟨rfl, hvalue, -⟩
    cases hvalue with
    | some hxy => exact .some ⟨rfl, hxy⟩
    | none => exact .none
  · exact (Variation.Pairs.flatMap h fun _ _ hab => hab.2.findings).reorder (horder.flatMap _)

theorem varies_assembleMap {item : Shape} {as mid bs : List (String × Outcome)}
    (h : List.Forall₂ (Keyed fun _ => Outcome.Varies v (ShapeVaries v o item)) as mid)
    (horder : v.Ordered mid bs) :
    (assembleMap as).Varies v (FormVaries v o (.map item)) (assembleMap bs) := by
  obtain ⟨hentries, hfindings⟩ := pairs_presentEntries h horder
  exact ⟨.some (formVaries_map hentries), hfindings⟩

theorem varies_extensionOutcome {j j' : Json} {name : String} (hraw : S (.json j) (.json j'))
    (h : a.Varies v S b) : (extensionOutcome name j a).Varies v S (extensionOutcome name j' b) := by
  obtain ⟨a, findings⟩ := a
  obtain ⟨b, findings'⟩ := b
  obtain ⟨hvalue, hfindings⟩ := h
  refine ⟨.some ?_, hfindings.map fun _ _ hf => hf.within name⟩
  cases hvalue with
  | some hxy => exact hxy
  | none => exact hraw

end

/-! ### Records -/

/-- What a member of an object gives on both sides. -/
inductive Part.Varies (v : Variation) (o : Options) (t : ObjectType) : Part → Part → Prop
  | field {name : String} {a b : Option Value} (h : Option.Rel (FieldVaries v o t name) a b) :
      Varies v o t (.field name a) (.field name b)
  | extensions {es es' : Table String Value}
      (h : v.Pairs (Keyed (ExtensionVaries v o t.lineage.chain)) es es') :
      Varies v o t (.extensions es) (.extensions es')
  | extras {j j' : Json} (h : j.Varies v j') : Varies v o t (.extras j) (.extras j')
  | unknown (key : String) {j j' : Json} (h : j.Varies v j') :
      Varies v o t (.unknown key j) (.unknown key j')
  | dropped : Varies v o t .dropped .dropped

/-- Records with fields and unknown members in the same order. -/
structure Aligned (v : Variation) (o : Options) (t : ObjectType) (r r' : Record) : Prop where
  lineage : r.lineage = r'.lineage
  fields : List.Forall₂ (Keyed (FieldVaries v o t)) r.fields r'.fields
  extensions : v.Pairs (Keyed (ExtensionVaries v o t.lineage.chain)) r.extensions r'.extensions
  extras : r.extras.Varies v r'.extras
  unknown : List.Forall₂ (Keyed fun _ => Json.Varies v) r.unknown r'.unknown

namespace Aligned

variable {t : ObjectType} {r r' : Record}

theorem blank (v : Variation) (o : Options) (t : ObjectType) : Aligned v o t t.blank t.blank where
  lineage := rfl
  fields := List.forall₂_same.2 fun f _ => ⟨rfl, .same t f.1 f.2⟩
  extensions := .nil
  extras := .null
  unknown := .nil

theorem addPart (h : Aligned v o t r r') {p p' : Part} (hp : p.Varies v o t p') :
    Aligned v o t (Reading.addPart r p) (Reading.addPart r' p') := by
  obtain ⟨hlineage, hfields, hextensions, hextras, hunknown⟩ := h
  cases hp with
  | field h =>
      cases h with
      | some hab => exact ⟨hlineage, Table.forall₂_put hfields hab, hextensions, hextras, hunknown⟩
      | none => exact ⟨hlineage, hfields, hextensions, hextras, hunknown⟩
  | extensions h => exact ⟨hlineage, hfields, h, hextras, hunknown⟩
  | extras h => exact ⟨hlineage, hfields, hextensions, h, hunknown⟩
  | unknown key h =>
      exact ⟨hlineage, hfields, hextensions, hextras, Table.forall₂_put hunknown h⟩
  | dropped => exact ⟨hlineage, hfields, hextensions, hextras, hunknown⟩

theorem foldl (h : Aligned v o t r r') {parts parts' : List Part}
    (hparts : List.Forall₂ (Part.Varies v o t) parts parts') :
    Aligned v o t (parts.foldl Reading.addPart r) (parts'.foldl Reading.addPart r') := by
  induction hparts generalizing r r' with
  | nil => exact h
  | cons hp _ ih => exact ih (h.addPart hp)

/-- Unknown members may come in another order. -/
theorem varies (h : Aligned v o t r r') {unknown : Table String Json}
    (horder : v.Ordered r'.unknown unknown) :
    RecordVaries v o t r (withUnknown r' unknown) := by
  obtain ⟨hnames, hfields⟩ := forall₂_keyed_iff.1 h.fields
  obtain ⟨mid, hpairs, hextensions⟩ := h.extensions
  obtain ⟨hkeys, hvalues⟩ := forall₂_keyed_iff.1 hpairs
  exact .mk h.lineage hnames hfields hkeys hvalues hextensions h.extras
    ((Variation.Pairs.of_forall₂ h.unknown).reorder horder)

end Aligned

end

end Reading

end Gltf
