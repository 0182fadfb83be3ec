import Gltf.Proofs.Reading.Equations
import Gltf.Proofs.Schema.Nulls
import Mathlib

/-!
Which values are read without a finding. Conformance is said from the object types and the options,
without the reader: required keys are there, every key of a property holds what its shape takes, and
the extensions that are given to a handler conform to it. The reader finds nothing exactly in values
that conform, except that it lets null through in a choice that does not list it.
-/

namespace Gltf.Reading

mutual

/-- Values of a form; `lax` lets null through in choices that do not list it. -/
inductive ConformsForm (o : Options) (lax : Bool) : Form → Json → Prop
  | bool (b : Bool) : ConformsForm o lax .bool (.bool b)
  | string (s : String) : ConformsForm o lax .string (.string s)
  | number {kind : NumberKind} {n n' : Number} (accepted : n.coerce? kind = some n') :
      ConformsForm o lax (.number kind) (.number n)
  | intEnum {e : IntEnum} {n : Number} {i : Int} (accepted : n.coerce? .int32 = some (.int i))
      (member : i ∈ e.members) : ConformsForm o lax (.intEnum e) (.number n)
  | stringEnum {e : StringEnum} {s : String} (member : s ∈ e.members) :
      ConformsForm o lax (.stringEnum e) (.string s)
  | any (j : Json) : ConformsForm o lax .any j
  | list {item : Shape} {values : List Json} (all : ∀ v ∈ values, ConformsShape o lax item v) :
      ConformsForm o lax (.list item) (.array values)
  | map {item : Shape} {members : List (String × Json)}
      (all : ∀ m ∈ members, ConformsShape o lax item m.2) :
      ConformsForm o lax (.map item) (.object members)
  | object {t : ObjectType} {members : List (String × Json)}
      (required : ∀ p ∈ t.properties, p.field ∈ t.requiredFields → p.key ∈ members.map (·.1))
      (values : ∀ m ∈ members, ∀ p, t.property? m.1 = some p → ConformsShape o lax p.shape m.2)
      (extensions : ∀ m ∈ members, m.1 = "extensions" → t.property? m.1 = none →
        ConformsExtensions o lax t.lineage.chain m.2) :
      ConformsForm o lax (.object t) (.object members)

inductive ConformsShape (o : Options) (lax : Bool) : Shape → Json → Prop
  | required {form : Form} {j : Json} (h : ConformsForm o lax form j) :
      ConformsShape o lax (.required form) j
  | absent (form : Form) : ConformsShape o lax (.optional form) .null
  | optional {form : Form} {j : Json} (h : ConformsForm o lax form j) :
      ConformsShape o lax (.optional form) j
  | choice {forms : List Form} {text : String} {listsNull : Bool} {form : Form} {j : Json}
      (member : form ∈ forms) (h : ConformsForm o lax form j) :
      ConformsShape o lax (.choice forms text listsNull) j
  | listedNull (forms : List Form) (text : String) :
      ConformsShape o lax (.choice forms text true) .null
  | unlistedNull (forms : List Form) (text : String) (listsNull : Bool) (h : lax = true) :
      ConformsShape o lax (.choice forms text listsNull) .null

/-- What the extensions of an object of the given kinds may hold. -/
inductive ConformsExtensions (o : Options) (lax : Bool) : List String → Json → Prop
  | mk {chain : List String} {entries : List (String × Json)}
      (all : ∀ e ∈ entries, ConformsExtension o lax chain e.1 e.2) :
      ConformsExtensions o lax chain (.object entries)

inductive ConformsExtension (o : Options) (lax : Bool) : List String → String → Json → Prop
  | untyped {chain : List String} {name : String} (j : Json) (h : o.resolve chain name ≠ .typed) :
      ConformsExtension o lax chain name j
  | unhandled {chain : List String} {name : String} (j : Json) (h : o.lookup chain name = none) :
      ConformsExtension o lax chain name j
  | record {chain : List String} {name : String} {t : ObjectType} {j : Json}
      (typed : o.resolve chain name = .typed) (handler : o.lookup chain name = some (.record t))
      (h : ConformsForm o lax (.object t) j) : ConformsExtension o lax chain name j
  | function {chain : List String} {name function : String}
      {read : List (String × Json) → Except String Reported} {members : List (String × Json)}
      {reported : Reported} (typed : o.resolve chain name = .typed)
      (handler : o.lookup chain name = some (.function function read))
      (call : read members = .ok reported) (errors : reported.errors = [])
      (warnings : reported.warnings = []) : ConformsExtension o lax chain name (.object members)

end

/-- Whether a value is read as a record, with nothing found wrong. -/
def ReadsCleanly (o : Options) (t : ObjectType) (path : Path) (raw : Json) : Prop :=
  ∃ r, readRecord o t path raw = (some r, [])

namespace Outcome

/-- A reading that finds nothing exactly if `P` holds, and then gives a value. -/
structure Decides (out : Outcome) (P : Prop) : Prop where
  clean : out.findings = [] ↔ P
  value : out.findings = [] → out.value.isSome = true

variable {P Q : Prop}

theorem decides_accept (v : Value) (h : P) : (accept v).Decides P :=
  ⟨iff_of_true rfl h, fun _ => rfl⟩

theorem decides_refuse (path : Path) (problem : Problem) (h : ¬P) :
    (refuse path problem).Decides P := by
  constructor
  · exact iff_of_false (List.cons_ne_nil _ _) h
  · intro hclean
    cases hclean

theorem Decides.congr {out : Outcome} (h : out.Decides P) (hiff : P ↔ Q) : out.Decides Q :=
  ⟨h.clean.trans hiff, h.value⟩

theorem Decides.clean? {out : Outcome} (h : out.Decides P) : out.clean?.isSome = true ↔ P := by
  rw [Outcome.clean?, ← h.clean]
  by_cases hfindings : out.findings = []
  · simp [hfindings, h.value hfindings]
  · simp [hfindings]

end Outcome

section
variable {o : Options} {lax : Bool}

/-! ### Leaves and shapes -/

theorem decides_readNumber (kind : NumberKind) (path : Path) (j : Json) :
    (readNumber kind path j).Decides (ConformsForm o lax (.number kind) j) := by
  cases j with
  | number n =>
      rw [readNumber]
      cases hn : n.coerce? kind with
      | none =>
          apply Outcome.decides_refuse
          intro h
          cases h with
          | number accepted => simp [hn] at accepted
      | some n' => exact Outcome.decides_accept _ (.number hn)
  | _ => exact Outcome.decides_refuse _ _ (by intro h; cases h)

theorem decides_readIntEnum (e : IntEnum) (path : Path) (j : Json) :
    (readIntEnum e path j).Decides (ConformsForm o lax (.intEnum e) j) := by
  cases j with
  | number n =>
      rw [readIntEnum]
      split
      · rename_i i hi
        by_cases hmember : i ∈ e.members
        · rw [if_pos (by simpa using hmember)]
          exact Outcome.decides_accept _ (.intEnum hi hmember)
        · rw [if_neg (by simpa using hmember)]
          apply Outcome.decides_refuse
          intro h
          cases h with
          | intEnum accepted member =>
              rw [hi] at accepted
              cases accepted
              exact hmember member
      · rename_i hother
        apply Outcome.decides_refuse
        intro h
        cases h with
        | intEnum accepted member => exact hother _ accepted
  | _ => exact Outcome.decides_refuse _ _ (by intro h; cases h)

theorem decides_readStringEnum (e : StringEnum) (path : Path) (j : Json) :
    (readStringEnum e path j).Decides (ConformsForm o lax (.stringEnum e) j) := by
  cases j with
  | string s =>
      rw [readStringEnum]
      by_cases hmember : s ∈ e.members
      · rw [if_pos (by simpa using hmember)]
        exact Outcome.decides_accept _ (.stringEnum hmember)
      · rw [if_neg (by simpa using hmember)]
        apply Outcome.decides_refuse
        intro h
        cases h with
        | stringEnum member => exact hmember member
  | _ => exact Outcome.decides_refuse _ _ (by intro h; cases h)

theorem decides_readLeaf {form : Form} {j : Json} (hopens : ¬Opens form j) (path : Path) :
    (readLeaf path form j).Decides (ConformsForm o lax form j) := by
  cases form with
  | bool =>
      cases j with
      | bool b => exact Outcome.decides_accept _ (.bool b)
      | _ => exact Outcome.decides_refuse _ _ (by intro h; cases h)
  | string =>
      cases j with
      | string s => exact Outcome.decides_accept _ (.string s)
      | _ => exact Outcome.decides_refuse _ _ (by intro h; cases h)
  | number kind => exact decides_readNumber kind path j
  | intEnum e => exact decides_readIntEnum e path j
  | stringEnum e => exact decides_readStringEnum e path j
  | any => exact Outcome.decides_accept _ (.any j)
  | list item => exact Outcome.decides_refuse _ _ (by intro h; cases h; exact hopens (.list item _))
  | map item => exact Outcome.decides_refuse _ _ (by intro h; cases h; exact hopens (.map item _))
  | object t => exact Outcome.decides_refuse _ _ (by intro h; cases h; exact hopens (.object t _))
  | unreadable text => exact Outcome.decides_refuse _ _ (by intro h; cases h)

theorem conformsShape_required_iff {form : Form} {j : Json} :
    ConformsShape o lax (.required form) j ↔ ConformsForm o lax form j := by
  constructor
  · intro h
    cases h with
    | required h => exact h
  · exact .required

theorem conformsShape_optional_iff {form : Form} {j : Json} (hj : j ≠ .null) :
    ConformsShape o lax (.optional form) j ↔ ConformsForm o lax form j := by
  constructor
  · intro h
    cases h with
    | absent => exact absurd rfl hj
    | optional h => exact h
  · exact .optional

theorem conformsShape_choice_iff {forms : List Form} {text : String} {listsNull : Bool} {j : Json}
    (hj : j ≠ .null) :
    ConformsShape o lax (.choice forms text listsNull) j ↔
      ∃ form ∈ forms, ConformsForm o lax form j := by
  constructor
  · intro h
    cases h with
    | choice member h => exact ⟨_, member, h⟩
    | listedNull => exact absurd rfl hj
    | unlistedNull => exact absurd rfl hj
  · rintro ⟨form, member, h⟩
    exact .choice member h

/-- Null passes a choice that lists it, and with `lax` any choice. -/
theorem decides_null (path : Path) {forms : List Form} {text : String} {listsNull : Bool}
    (hnull : lax = true ∨ listsNull = true) :
    (readValue o path (.choice forms text listsNull) .null).Decides
      (ConformsShape o lax (.choice forms text listsNull) .null) := by
  apply Outcome.decides_accept
  rcases hnull with hlax | rfl
  · exact .unlistedNull forms text listsNull hlax
  · exact .listedNull forms text

/-- A shape decides as the forms in it do; the hypothesis on nulls passes to them. -/
theorem decides_readValue {j : Json}
    (ih : ∀ path form, lax = true ∨ form.listsNulls = true →
      (readForm o path form j).Decides (ConformsForm o lax form j))
    (path : Path) {shape : Shape} (hnulls : lax = true ∨ shape.listsNulls = true) :
    (readValue o path shape j).Decides (ConformsShape o lax shape j) := by
  cases shape with
  | required form => exact (ih path form hnulls).congr conformsShape_required_iff.symm
  | optional form =>
      by_cases hj : j = .null
      · subst hj
        exact Outcome.decides_accept _ (.absent form)
      · rw [readValue_optional_of_ne o path hj]
        exact (ih path form hnulls).congr (conformsShape_optional_iff hj).symm
  | choice forms text listsNull =>
      rw [Shape.listsNulls, Bool.and_eq_true, formsListNulls_iff] at hnulls
      by_cases hj : j = .null
      · subst hj
        exact decides_null path (hnulls.imp_right And.left)
      · have hform (form : Form) (hmem : form ∈ forms) :
            (readForm o path form j).clean?.isSome = true ↔ ConformsForm o lax form j :=
          (ih path form (hnulls.imp_right fun h => h.2 form hmem)).clean?
        rw [readValue_choice_of_ne o path hj]
        cases hfound : forms.findSome? fun form => (readForm o path form j).clean? with
        | none =>
            apply Outcome.decides_refuse
            rw [conformsShape_choice_iff hj]
            rintro ⟨form, hmem, h⟩
            have hclean := (hform form hmem).2 h
            rw [List.findSome?_eq_none_iff.1 hfound form hmem] at hclean
            cases hclean
        | some v =>
            obtain ⟨form, hmem, hv⟩ := List.exists_of_findSome?_eq_some hfound
            apply Outcome.decides_accept
            rw [conformsShape_choice_iff hj]
            exact ⟨form, hmem, (hform form hmem).1 (by rw [hv]; rfl)⟩

/-! ### Containers -/

theorem decides_list {item : Shape} {values : List Json} (path : Path)
    (ih : ∀ v ∈ values, ∀ path, (readValue o path item v).Decides (ConformsShape o lax item v)) :
    (readForm o path (.list item) (.array values)).Decides
      (ConformsForm o lax (.list item) (.array values)) := by
  rw [readForm_array_list]
  refine ⟨?_, fun _ => rfl⟩
  simp only [assembleList, List.flatMap_eq_nil_iff, List.mem_mapIdx, forall_exists_index]
  constructor
  · intro h
    refine .list fun v hv => ?_
    obtain ⟨i, hi, rfl⟩ := List.mem_iff_getElem.1 hv
    exact (ih _ hv (path.index i)).clean.1 (h _ i hi rfl)
  · rintro ⟨⟩ out i hi rfl
    rename_i all
    exact (ih _ (List.getElem_mem hi) (path.index i)).clean.2 (all _ (List.getElem_mem hi))

theorem decides_map {item : Shape} {members : List (String × Json)} (path : Path)
    (ih : ∀ m ∈ members, ∀ path,
      (readValue o path item m.2).Decides (ConformsShape o lax item m.2)) :
    (readForm o path (.map item) (.object members)).Decides
      (ConformsForm o lax (.map item) (.object members)) := by
  rw [readForm_object_map]
  refine ⟨?_, fun _ => rfl⟩
  simp only [assembleMap, List.flatMap_eq_nil_iff, List.forall_mem_map]
  constructor
  · intro h
    exact .map fun m hm => (ih m hm (path.key m.1)).clean.1 (h m hm)
  · rintro ⟨⟩ m hm
    rename_i all
    exact (ih m hm (path.key m.1)).clean.2 (all m hm)

theorem missingFindings_eq_nil_iff (t : ObjectType) (path : Path) (keys : List String) :
    missingFindings t path keys = [] ↔
      ∀ p ∈ t.properties, p.field ∈ t.requiredFields → p.key ∈ keys := by
  rw [missingFindings, List.map_eq_nil_iff, List.filter_eq_nil_iff]
  refine forall₂_congr fun p hp => ?_
  simp only [Bool.and_eq_true, Bool.not_eq_true', List.contains_eq_mem, decide_eq_false_iff_not,
    decide_eq_true_eq]
  tauto

theorem decides_object {t : ObjectType} {members : List (String × Json)} (path : Path)
    (hvalues : ∀ m ∈ members, ∀ p, t.property? m.1 = some p → ∀ path,
      (readValue o path p.shape m.2).Decides (ConformsShape o lax p.shape m.2))
    (hextensions : ∀ m ∈ members, ∀ path,
      (readBlock o t.lineage.chain path m.2).2 = [] ↔
        ConformsExtensions o lax t.lineage.chain m.2) :
    (readForm o path (.object t) (.object members)).Decides
      (ConformsForm o lax (.object t) (.object members)) := by
  -- Only a property and the extensions can be found at fault.
  have hmember : ∀ m ∈ members, (readMember o t path m.1 m.2).2 = [] ↔
      (∀ p, t.property? m.1 = some p → ConformsShape o lax p.shape m.2) ∧
        (m.1 = "extensions" → t.property? m.1 = none →
          ConformsExtensions o lax t.lineage.chain m.2) := by
    intro m hm
    cases hproperty : t.property? m.1 with
    | some p =>
        have hvalue := (hvalues m hm p hproperty (path.key m.1)).clean
        simp only [readMember, hproperty, hvalue]
        simp
    | none =>
        have hblock := hextensions m hm (path.key m.1)
        simp only [readMember, hproperty, readOther]
        by_cases hkey : m.1 = "extensions"
        · rw [if_pos hkey]
          simpa [hkey] using hblock
        · rw [if_neg hkey]
          simp only [hkey, false_imp_iff, and_true]
          split_ifs <;> simp
  rw [readForm_object_object]
  refine ⟨?_, fun _ => rfl⟩
  simp only [assemble, List.append_eq_nil_iff, List.flatMap_eq_nil_iff, List.forall_mem_map,
    missingFindings_eq_nil_iff]
  constructor
  · rintro ⟨hclean, hrequired⟩
    exact .object hrequired (fun m hm => ((hmember m hm).1 (hclean m hm)).1)
      (fun m hm => ((hmember m hm).1 (hclean m hm)).2)
  · rintro ⟨⟩
    rename_i hrequired values extensions
    exact ⟨fun m hm => (hmember m hm).2 ⟨values m hm, extensions m hm⟩, hrequired⟩

/-! ### Extensions -/

theorem findings_extensionOutcome {name : String} {raw : Json} {out : Outcome} :
    (extensionOutcome name raw out).findings = [] ↔ out.findings = [] := by
  rw [extensionOutcome, List.map_eq_nil_iff]

theorem findings_callReader {path : Path} {read : List (String × Json) → Except String Reported}
    {j : Json} :
    (callReader path read j).findings = [] ↔ ∃ members reported, j = .object members ∧
      read members = .ok reported ∧ reported.errors = [] ∧ reported.warnings = [] := by
  cases j with
  | object members =>
      rw [callReader]
      cases hcall : read members with
      | error text => simp [hcall, Outcome.refuse]
      | ok reported => simp [hcall, reportedFindings]
  | _ => simp [callReader, Outcome.refuse]

/-- An extension is read without a finding exactly if it conforms, given that for its handler. -/
theorem readExtension_clean_iff {chain : List String} {path : Path} {name : String} {j : Json}
    (ih : ∀ t, o.handler? chain name = some (.record t) → ∀ path,
      (readForm o path (.object t) j).Decides (ConformsForm o lax (.object t) j)) :
    (readExtension o chain path name j).findings = [] ↔ ConformsExtension o lax chain name j := by
  rw [readExtension]
  by_cases hdisabled : o.resolve chain name = .disabled
  · rw [if_pos hdisabled]
    have huntyped : o.resolve chain name ≠ .typed := by
      rw [hdisabled]
      decide
    exact iff_of_true rfl (.untyped j huntyped)
  · rw [if_neg hdisabled]
    cases hhandler : o.handler? chain name with
    | none =>
        refine iff_of_true rfl ?_
        by_cases htyped : o.resolve chain name = .typed
        · rw [Options.handler?, if_pos htyped] at hhandler
          exact .unhandled j hhandler
        · exact .untyped j htyped
    | some handler =>
        obtain ⟨htyped, hlookup⟩ := Options.handler?_eq_some_iff.1 hhandler
        cases handler with
        | record t =>
            simp only [findings_extensionOutcome, (ih t hhandler (path.key name)).clean]
            constructor
            · exact .record htyped hlookup
            · intro h
              cases h with
              | untyped _ h => exact absurd htyped h
              | unhandled _ h => simp [hlookup] at h
              | record typed handler h =>
                  rw [hlookup] at handler
                  cases handler
                  exact h
              | function typed handler => simp [hlookup] at handler
        | function function read =>
            simp only [findings_extensionOutcome, findings_callReader]
            constructor
            · rintro ⟨members, reported, rfl, hcall, herrors, hwarnings⟩
              exact .function htyped hlookup hcall herrors hwarnings
            · intro h
              cases h with
              | untyped _ h => exact absurd htyped h
              | unhandled _ h => simp [hlookup] at h
              | record typed handler => simp [hlookup] at handler
              | function typed handler call errors warnings =>
                  rw [hlookup] at handler
                  cases handler
                  exact ⟨_, _, rfl, call, errors, warnings⟩

theorem readBlock_clean_iff {chain : List String} {path : Path} {entries : List (String × Json)}
    (ih : ∀ e ∈ entries, (readExtension o chain path e.1 e.2).findings = [] ↔
      ConformsExtension o lax chain e.1 e.2) :
    (readBlock o chain path (.object entries)).2 = [] ↔
      ConformsExtensions o lax chain (.object entries) := by
  simp only [readBlock, List.flatMap_eq_nil_iff, List.forall_mem_map]
  constructor
  · intro h
    exact .mk fun e he => (ih e he).1 (h e he)
  · rintro ⟨⟩ e he
    rename_i all
    exact (ih e he).2 (all e he)

theorem readBlock_clean_iff_of_ne {chain : List String} {path : Path} {j : Json}
    (hj : ∀ entries, j ≠ .object entries) :
    (readBlock o chain path j).2 = [] ↔ ConformsExtensions o lax chain j := by
  rw [readBlock_of_ne_object o path hj]
  refine iff_of_false (List.cons_ne_nil _ _) fun h => ?_
  cases h with
  | mk all => exact hj _ rfl

/-! ### Values -/

/-- What the induction over JSON carries: forms decide a value, and so do the readers of extensions
if it is what stands there. -/
def Decided (o : Options) (lax : Bool) (j : Json) : Prop :=
  (∀ path form, lax = true ∨ form.listsNulls = true →
    (readForm o path form j).Decides (ConformsForm o lax form j)) ∧
  ∀ path chain, (readBlock o chain path j).2 = [] ↔ ConformsExtensions o lax chain j

theorem decided (ho : lax = true ∨ o.ListsNulls) (j : Json) : Decided o lax j := by
  refine inductionOn (fun path form j => lax = true ∨ form.listsNulls = true →
    (readForm o path form j).Decides (ConformsForm o lax form j)) (fun path chain j =>
    (readBlock o chain path j).2 = [] ↔ ConformsExtensions o lax chain j) j ?list ?map ?object ?leaf
    ?extensions ?none
  case list =>
    intro path item items ih hnulls
    exact decides_list path fun v hv path => decides_readValue (ih v hv) path hnulls
  case map =>
    intro path item members ih hnulls
    exact decides_map path fun m hm path => decides_readValue (ih m hm) path hnulls
  case object =>
    intro path t members ih hnulls
    refine decides_object path ?_ fun m hm path => (ih m hm).2 path _
    intro m hm p hproperty path
    refine decides_readValue (ih m hm).1 path (hnulls.imp_right fun h => ?_)
    exact t.listsNulls_iff.1 h p (List.mem_of_find?_eq_some hproperty)
  case leaf =>
    intro path form j hopens _
    rw [readForm_of_not_opens o path hopens]
    exact decides_readLeaf hopens path
  case extensions =>
    intro path chain members ih
    refine readBlock_clean_iff fun e he => readExtension_clean_iff fun t hhandler path => ?_
    exact ih e he path (.object t) (ho.imp_right fun h => h.of_handler? hhandler)
  case none => exact fun path chain j hobject => readBlock_clean_iff_of_ne hobject

theorem readsCleanly_iff_conformsForm {t : ObjectType} {path : Path} {raw : Json}
    (ht : lax = true ∨ t.listsNulls = true) (ho : lax = true ∨ o.ListsNulls) :
    ReadsCleanly o t path raw ↔ ConformsForm o lax (.object t) raw := by
  have hdecides := (decided ho raw).1 path (.object t) ht
  rw [← hdecides.clean, ReadsCleanly, readRecord]
  simp only [Prod.mk.injEq, exists_and_right, and_iff_right_iff_imp]
  intro hclean
  cases raw with
  | object members =>
      rw [readForm_object_object]
      exact ⟨_, rfl⟩
  | _ => cases hclean

end

/-! ### Null in choices -/

mutual

theorem ConformsForm.relax {o : Options} {form : Form} {j : Json} :
    ConformsForm o false form j → ConformsForm o true form j
  | .bool b => .bool b
  | .string s => .string s
  | .number accepted => .number accepted
  | .intEnum accepted member => .intEnum accepted member
  | .stringEnum member => .stringEnum member
  | .any j => .any j
  | .list all => .list fun v hv => (all v hv).relax
  | .map all => .map fun m hm => (all m hm).relax
  | .object required values extensions =>
      .object required (fun m hm p hp => (values m hm p hp).relax)
        fun m hm hkey hp => (extensions m hm hkey hp).relax
termination_by structural h => h

theorem ConformsShape.relax {o : Options} {shape : Shape} {j : Json} :
    ConformsShape o false shape j → ConformsShape o true shape j
  | .required h => .required h.relax
  | .absent form => .absent form
  | .optional h => .optional h.relax
  | .choice member h => .choice member h.relax
  | .listedNull forms text => .listedNull forms text
  | .unlistedNull forms text listsNull h => nomatch h
termination_by structural h => h

theorem ConformsExtensions.relax {o : Options} {chain : List String} {j : Json} :
    ConformsExtensions o false chain j → ConformsExtensions o true chain j
  | .mk all => .mk fun e he => (all e he).relax
termination_by structural h => h

theorem ConformsExtension.relax {o : Options} {chain : List String} {name : String} {j : Json} :
    ConformsExtension o false chain name j → ConformsExtension o true chain name j
  | .untyped j h => .untyped j h
  | .unhandled j h => .unhandled j h
  | .record typed handler h => .record typed handler h.relax
  | .function typed handler call errors warnings => .function typed handler call errors warnings
termination_by structural h => h

end

/-- A value is read as a record without a finding exactly if it conforms to the object type, apart
from null in choices: the reader lets it through where a choice does not list it. What conforms is
always read without a finding, and where the choices of all handlers list null, as those of glTF and
of the extensions read out of the box do, nothing else is. -/
theorem readsCleanly_iff (o : Options) (t : ObjectType) (path : Path) (raw : Json) :
    (ReadsCleanly o t path raw ↔ ConformsForm o true (.object t) raw) ∧
      (ConformsForm o false (.object t) raw → ReadsCleanly o t path raw) ∧
      (t ∈ Schema.allTypes → o.ListsNulls →
        (ReadsCleanly o t path raw ↔ ConformsForm o false (.object t) raw)) := by
  have hlax : ReadsCleanly o t path raw ↔ ConformsForm o true (.object t) raw :=
    readsCleanly_iff_conformsForm (.inl rfl) (.inl rfl)
  refine ⟨hlax, fun h => hlax.2 h.relax, fun ht ho => ?_⟩
  exact readsCleanly_iff_conformsForm (.inr (Schema.listsNulls_of_mem t ht)) (.inr ho)

/-- The smallest document of glTF 2.0. -/
theorem readsCleanly_iff_asset :
    let raw : Json := .object [("asset", .object [("version", .string "2.0")])]
    Schema.root ∈ Schema.allTypes ∧ Options.ListsNulls {} ∧
      ReadsCleanly {} Schema.root ⟨"", []⟩ raw ∧
      ConformsForm {} false (.object Schema.root) raw := by
  intro raw
  have hroot : Schema.root ∈ Schema.allTypes := by
    simp [Schema.allTypes, Schema.coreTypes]
  have hclean : ReadsCleanly {} Schema.root ⟨"", []⟩ raw := ⟨_, rfl⟩
  have hiff := (readsCleanly_iff {} Schema.root ⟨"", []⟩ raw).2.2 hroot Options.listsNulls_default
  exact ⟨hroot, Options.listsNulls_default, hclean, hiff.1 hclean⟩

theorem not_conformsForm_vendorMix {o : Options} :
    ¬ConformsForm o false (.object Schema.vendorMix) (.object [("choice", .null)]) := by
  rintro ⟨⟩
  rename_i required values extensions
  have hchoice := values _ List.mem_cons_self _ rfl
  rcases hchoice with _ | _ | _ | ⟨member, h⟩ | _ | ⟨_, _, _, h⟩
  · simp only [List.mem_cons, List.not_mem_nil, or_false] at member
    rcases member with rfl | rfl <;> cases h
  · cases h

/-- Null in a choice of a handler that does not list it. -/
theorem readsCleanly_unlisted_null :
    ReadsCleanly .withVendorMix Schema.scene ⟨"", []⟩
        (.object [("extensions", .object [("VENDOR_mix", .object [("choice", .null)])])]) ∧
      ¬ConformsForm .withVendorMix false (.object Schema.scene)
        (.object [("extensions", .object [("VENDOR_mix", .object [("choice", .null)])])]) := by
  have htyped : Options.withVendorMix.resolve Schema.scene.lineage.chain "VENDOR_mix" = .typed :=
    rfl
  have hlookup : Options.withVendorMix.lookup Schema.scene.lineage.chain "VENDOR_mix" =
      some (.record Schema.vendorMix) := rfl
  refine ⟨⟨_, rfl⟩, ?_⟩
  -- Conformance hands the extension to its handler, whose choice has no room for null.
  rintro ⟨⟩
  rename_i required values extensions
  obtain ⟨all⟩ := extensions _ List.mem_cons_self rfl rfl
  have hentry := all _ List.mem_cons_self
  cases hentry with
  | untyped _ h => exact h htyped
  | unhandled _ h => simp [hlookup] at h
  | record typed handler h =>
      rw [hlookup] at handler
      cases handler
      exact not_conformsForm_vendorMix h
  | function typed handler => simp [hlookup] at handler

end Gltf.Reading
