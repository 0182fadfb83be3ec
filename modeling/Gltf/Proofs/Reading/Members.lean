import Gltf.Proofs.Reading.Conformance
import Gltf.Proofs.Schema.Regular
import Gltf.Proofs.Table
import Mathlib

/-!
Where each member of an object goes. A record takes its fields from the keys of its properties, its
extensions and extras from theirs, and what is left is kept as unknown or dropped, so that with
distinct keys the whole record can be told from the members.
-/

namespace Gltf

/-- Whether a key of an object has a meaning of its own. -/
def ObjectType.knows (t : ObjectType) (key : String) : Bool :=
  (t.properties.map (·.key)).contains key || key == "extensions" || key == "extras"

theorem ObjectType.property?_eq_none_iff {t : ObjectType} {key : String} :
    t.property? key = none ↔ key ∉ t.properties.map (·.key) := by
  simp [ObjectType.property?]

theorem ObjectType.property?_eq_some_iff {t : ObjectType} {key : String} {p : Property}
    (hkeys : (t.properties.map (·.key)).Nodup) :
    t.property? key = some p ↔ p ∈ t.properties ∧ p.key = key := by
  constructor
  · intro h
    exact ⟨List.mem_of_find?_eq_some h, by simpa using List.find?_some h⟩
  · rintro ⟨hp, rfl⟩
    cases hfound : t.property? p.key with
    | none => exact absurd (List.mem_map_of_mem hp) (property?_eq_none_iff.1 hfound)
    | some q =>
        have hq : q ∈ t.properties := List.mem_of_find?_eq_some hfound
        have hkey : q.key = p.key := by simpa using List.find?_some hfound
        rw [List.inj_on_of_nodup_map hkeys hq hp hkey]

namespace Reading

/-! ### Parts -/

namespace Part

/-- The field that is set, with its value. -/
def set? : Part → Option (String × Value)
  | .field name value => value.map (name, ·)
  | _ => none

def extensions? : Part → Option (Table String Value)
  | .extensions entries => some entries
  | _ => none

def extras? : Part → Option Json
  | .extras value => some value
  | _ => none

def unknown? : Part → Option (String × Json)
  | .unknown key value => some (key, value)
  | _ => none

end Part

section
variable (r : Record) (parts : List Part)

theorem lineage_foldl_addPart : (parts.foldl addPart r).lineage = r.lineage := by
  induction parts generalizing r with
  | nil => rfl
  | cons part parts ih =>
      rw [List.foldl_cons, ih]
      rcases part with ⟨_, _ | _⟩ | _ | _ | _ | _ <;> rfl

theorem fields_foldl_addPart :
    (parts.foldl addPart r).fields = Table.putAll r.fields (parts.filterMap Part.set?) := by
  induction parts generalizing r with
  | nil => rfl
  | cons part parts ih =>
      rw [List.foldl_cons, ih]
      rcases part with ⟨_, _ | _⟩ | _ | _ | _ | _ <;> rfl

theorem unknown_foldl_addPart :
    (parts.foldl addPart r).unknown = Table.putAll r.unknown (parts.filterMap Part.unknown?) := by
  induction parts generalizing r with
  | nil => rfl
  | cons part parts ih =>
      rw [List.foldl_cons, ih]
      rcases part with ⟨_, _ | _⟩ | _ | _ | _ | _ <;> rfl

theorem extras_foldl_addPart :
    (parts.foldl addPart r).extras = (parts.filterMap Part.extras?).getLast?.getD r.extras := by
  induction parts generalizing r with
  | nil => rfl
  | cons part parts ih =>
      rw [List.foldl_cons, ih]
      rcases part with ⟨_, _ | _⟩ | _ | value | _ | _
      case extras =>
        have hcons : (Part.extras value :: parts).filterMap Part.extras? =
            value :: parts.filterMap Part.extras? := rfl
        rw [hcons, List.getLast?_cons, Option.getD_some]
        rfl
      all_goals rfl

theorem extensions_foldl_addPart :
    (parts.foldl addPart r).extensions =
      (parts.filterMap Part.extensions?).getLast?.getD r.extensions := by
  induction parts generalizing r with
  | nil => rfl
  | cons part parts ih =>
      rw [List.foldl_cons, ih]
      rcases part with ⟨_, _ | _⟩ | entries | _ | _ | _
      case extensions =>
        have hcons : (Part.extensions entries :: parts).filterMap Part.extensions? =
            entries :: parts.filterMap Part.extensions? := rfl
        rw [hcons, List.getLast?_cons, Option.getD_some]
        rfl
      all_goals rfl

end

/-! ### Members -/

section
variable (o : Options) (t : ObjectType) (path : Path) (members : List (String × Json))

/-- The parts that the members of an object give, in their order. -/
def memberParts : List Part := members.map fun m => (readMember o t path m.1 m.2).1

/-- What is found in an object. -/
def memberFindings : List Finding :=
  members.flatMap (fun m => (readMember o t path m.1 m.2).2) ++
    missingFindings t path (members.map (·.1))

theorem readForm_object_eq :
    readForm o path (.object t) (.object members) =
      ⟨some (.record ((memberParts o t path members).foldl addPart t.blank)),
        memberFindings o t path members⟩ := by
  rw [readForm_object_object, assemble, List.map_map, List.flatMap_map]
  rfl

theorem readRecord_object_eq :
    readRecord o t path (.object members) =
      (some ((memberParts o t path members).foldl addPart t.blank),
        memberFindings o t path members) := by
  rw [readRecord, readForm_object_eq]
  rfl

variable {o t path members}

theorem readMember_of_property {key : String} {p : Property} (h : t.property? key = some p)
    (value : Json) :
    readMember o t path key value =
      (.field p.field (readValue o (path.key key) p.shape value).value,
        (readValue o (path.key key) p.shape value).findings) := by
  rw [readMember, h]

theorem readMember_of_unlisted {key : String} (h : t.property? key = none) (value : Json) :
    readMember o t path key value = readOther o t path key value := by
  rw [readMember, h]

theorem extras?_readMember_of_ne {key : String} (hkey : key ≠ "extras") (value : Json) :
    (readMember o t path key value).1.extras? = none := by
  cases hproperty : t.property? key with
  | some p =>
      rw [readMember_of_property hproperty]
      rfl
  | none =>
      rw [readMember_of_unlisted hproperty, readOther]
      split_ifs <;> rfl

theorem extensions?_readMember_of_ne {key : String} (hkey : key ≠ "extensions") (value : Json) :
    (readMember o t path key value).1.extensions? = none := by
  cases hproperty : t.property? key with
  | some p =>
      rw [readMember_of_property hproperty]
      rfl
  | none =>
      rw [readMember_of_unlisted hproperty, readOther, if_neg hkey]
      split_ifs <;> rfl

theorem mem_set?_memberParts {name : String} {v : Value} :
    (name, v) ∈ (memberParts o t path members).filterMap Part.set? ↔
      ∃ m ∈ members, ∃ p, t.property? m.1 = some p ∧ p.field = name ∧
        (readValue o (path.key m.1) p.shape m.2).value = some v := by
  simp only [memberParts, List.filterMap_map, List.mem_filterMap, Function.comp_apply]
  refine exists_congr fun m => and_congr_right fun _ => ?_
  cases hproperty : t.property? m.1 with
  | some p =>
      rw [readMember_of_property hproperty]
      cases hvalue : (readValue o (path.key m.1) p.shape m.2).value <;>
        simp [Part.set?, hvalue]
  | none =>
      rw [readMember_of_unlisted hproperty, readOther]
      split_ifs <;> simp [Part.set?]

theorem filterMap_unknown?_memberParts :
    (memberParts o t path members).filterMap Part.unknown? =
      if o.captureUnknown then members.filter fun m => !t.knows m.1 else [] := by
  induction members with
  | nil => simp [memberParts]
  | cons m members ih =>
      have hcons : memberParts o t path (m :: members) =
          (readMember o t path m.1 m.2).1 :: memberParts o t path members := rfl
      rw [hcons, List.filterMap_cons, ih, List.filter_cons]
      cases hproperty : t.property? m.1 with
      | some p =>
          have hkey : m.1 ∈ t.properties.map (·.key) := by
            by_contra hkey
            rw [ObjectType.property?_eq_none_iff.2 hkey] at hproperty
            cases hproperty
          have hknows : t.knows m.1 = true := by
            simp only [ObjectType.knows, List.contains_iff_mem.2 hkey, Bool.true_or]
          rw [readMember_of_property hproperty, hknows]
          rfl
      | none =>
          have hkey : (t.properties.map (·.key)).contains m.1 = false := by
            simpa using ObjectType.property?_eq_none_iff.1 hproperty
          rw [readMember_of_unlisted hproperty, readOther, ObjectType.knows, hkey]
          split_ifs <;> simp_all [Part.unknown?]

theorem filterMap_extras?_memberParts (hkeys : (members.map (·.1)).Nodup)
    (hextras : t.property? "extras" = none) :
    (memberParts o t path members).filterMap Part.extras? =
      (Table.get? members "extras").toList := by
  rw [memberParts, List.filterMap_map]
  refine (Table.filterMap_of_key hkeys fun m _ hkey => extras?_readMember_of_ne hkey m.2).trans ?_
  cases Table.get? members "extras" with
  | none => rfl
  | some j =>
      simp only [Option.bind_some, readMember_of_unlisted hextras, readOther]
      rfl

theorem filterMap_extensions?_memberParts (hkeys : (members.map (·.1)).Nodup)
    (hextensions : t.property? "extensions" = none) :
    (memberParts o t path members).filterMap Part.extensions? =
      ((Table.get? members "extensions").map fun j =>
        (readBlock o t.lineage.chain (path.key "extensions") j).1).toList := by
  rw [memberParts, List.filterMap_map]
  refine (Table.filterMap_of_key hkeys fun m _ hkey =>
    extensions?_readMember_of_ne hkey m.2).trans ?_
  cases Table.get? members "extensions" with
  | none => rfl
  | some j =>
      simp only [Option.bind_some, readMember_of_unlisted hextensions, readOther]
      rfl

/-- With distinct keys, no unknown member takes the place of another. -/
theorem unknown_foldl_memberParts (hkeys : (members.map (·.1)).Nodup) :
    ((memberParts o t path members).foldl addPart t.blank).unknown =
      (memberParts o t path members).filterMap Part.unknown? := by
  have hsublist : ((memberParts o t path members).filterMap Part.unknown?).Sublist members := by
    rw [filterMap_unknown?_memberParts]
    split_ifs
    · exact List.filter_sublist
    · exact List.nil_sublist _
  rw [unknown_foldl_addPart]
  exact Table.putAll_of_nodup (hkeys.sublist (hsublist.map _))

/-! ### Records -/

/-- A record accounts for the members of an object: each has gone to its own place, unchanged or as
it was read, and the rest is as the type declares it. -/
structure Accounts (o : Options) (t : ObjectType) (path : Path) (members : List (String × Json))
    (r : Record) (findings : List Finding) : Prop where
  lineage : r.lineage = t.lineage
  names : r.fields.map (·.1) = t.properties.map (·.field) ++ t.derived
  /-- The field of a key that is there holds what is read from it, or else there is a finding. -/
  present : ∀ p ∈ t.properties, ∀ j, Table.get? members p.key = some j →
    (∃ v, (readValue o (path.key p.key) p.shape j).value = some v ∧
        Table.get? r.fields p.field = some v) ∨
      ((readValue o (path.key p.key) p.shape j).value = none ∧
        Table.get? r.fields p.field = some p.initial ∧
        ∃ f ∈ findings, f ∈ (readValue o (path.key p.key) p.shape j).findings)
  absent : ∀ p ∈ t.properties, p.key ∉ members.map (·.1) →
    Table.get? r.fields p.field = some p.initial
  derived : ∀ name ∈ t.derived, Table.get? r.fields name = some .null
  extensions : r.extensions = ((Table.get? members "extensions").map fun j =>
    (readBlock o t.lineage.chain (path.key "extensions") j).1).getD []
  extras : r.extras = (Table.get? members "extras").getD .null
  unknown : r.unknown = if o.captureUnknown then members.filter fun m => !t.knows m.1 else []

/-- A value that is not read leaves a finding. -/
theorem findings_ne_nil_of_value_eq_none {shape : Shape} {j : Json}
    (h : (readValue o path shape j).value = none) : (readValue o path shape j).findings ≠ [] := by
  intro hclean
  have hdecides : (readValue o path shape j).Decides (ConformsShape o true shape j) :=
    decides_readValue (decided (.inl rfl) j).1 path (.inl rfl)
  have hvalue := hdecides.value hclean
  rw [h] at hvalue
  cases hvalue

/-- What is found in a member is found in the object. -/
theorem mem_memberFindings {m : String × Json} (hm : m ∈ members) {f : Finding}
    (hf : f ∈ (readMember o t path m.1 m.2).2) : f ∈ memberFindings o t path members :=
  List.mem_append_left _ (List.mem_flatMap.2 ⟨m, hm, hf⟩)

theorem keys_blank : t.blank.fields.map (·.1) = t.properties.map (·.field) ++ t.derived := by
  simp [ObjectType.blank, Record.fields, Function.comp_def]

/-- Members set no other fields than those that are there. -/
theorem mem_keys_blank_of_mem_set? :
    ∀ e ∈ (memberParts o t path members).filterMap Part.set?, e.1 ∈ t.blank.fields.map (·.1) := by
  rintro ⟨name, v⟩ he
  obtain ⟨m, -, p, hp, rfl, -⟩ := mem_set?_memberParts.1 he
  rw [keys_blank]
  exact List.mem_append_left _ (List.mem_map_of_mem (List.mem_of_find?_eq_some hp))

theorem get?_blank_of_property (hfields : (t.properties.map (·.field) ++ t.derived).Nodup)
    {p : Property} (hp : p ∈ t.properties) :
    Table.get? t.blank.fields p.field = some p.initial := by
  apply Table.get?_of_mem
  · rwa [keys_blank]
  · exact List.mem_append_left _ (List.mem_map.2 ⟨p, hp, rfl⟩)

theorem get?_blank_of_derived (hfields : (t.properties.map (·.field) ++ t.derived).Nodup)
    {name : String} (hname : name ∈ t.derived) :
    Table.get? t.blank.fields name = some .null := by
  apply Table.get?_of_mem
  · rwa [keys_blank]
  · exact List.mem_append_right _ (List.mem_map.2 ⟨name, hname, rfl⟩)

/-- A field that no member sets keeps the value it has to begin with. -/
theorem get?_foldl_of_unset {name : String}
    (hunset : ∀ v, (name, v) ∉ (memberParts o t path members).filterMap Part.set?) :
    Table.get? ((memberParts o t path members).foldl addPart t.blank).fields name =
      Table.get? t.blank.fields name := by
  rw [fields_foldl_addPart]
  apply Table.get?_putAll_of_notMem
  intro hname
  obtain ⟨⟨_, v⟩, hv, rfl⟩ := List.mem_map.1 hname
  exact hunset v hv

/-- With distinct keys and fields, what sets a field comes from the one member with its key. -/
theorem mem_set?_property (hsep : Separate t.properties t.derived)
    (hkeys : (members.map (·.1)).Nodup) {p : Property} (hp : p ∈ t.properties) {v : Value} :
    (p.field, v) ∈ (memberParts o t path members).filterMap Part.set? ↔
      ∃ j, Table.get? members p.key = some j ∧
        (readValue o (path.key p.key) p.shape j).value = some v := by
  have hfields : (t.properties.map (·.field)).Nodup := hsep.fields.of_append_left
  rw [mem_set?_memberParts]
  constructor
  · rintro ⟨m, hm, q, hq, hfield, hv⟩
    obtain ⟨hqmem, hqkey⟩ := (ObjectType.property?_eq_some_iff hsep.keys).1 hq
    obtain rfl : q = p := List.inj_on_of_nodup_map hfields hqmem hp hfield
    rw [← hqkey] at hv
    refine ⟨m.2, Table.get?_of_mem hkeys ?_, hv⟩
    rw [hqkey]
    exact hm
  · rintro ⟨j, hj, hv⟩
    exact ⟨_, Table.mem_of_get? hj, p,
      (ObjectType.property?_eq_some_iff hsep.keys).2 ⟨hp, rfl⟩, rfl, hv⟩

theorem keys_foldl_addPart :
    ((memberParts o t path members).foldl addPart t.blank).fields.map (·.1) =
      t.properties.map (·.field) ++ t.derived := by
  rw [fields_foldl_addPart, Table.keys_putAll_of_subset mem_keys_blank_of_mem_set?, keys_blank]

theorem field_of_present (hsep : Separate t.properties t.derived)
    (hkeys : (members.map (·.1)).Nodup) {p : Property} (hp : p ∈ t.properties) {j : Json}
    (hj : Table.get? members p.key = some j) :
    Table.get? ((memberParts o t path members).foldl addPart t.blank).fields p.field =
      some ((readValue o (path.key p.key) p.shape j).value.getD p.initial) := by
  have hset {v : Value} : (p.field, v) ∈ (memberParts o t path members).filterMap Part.set? ↔
      (readValue o (path.key p.key) p.shape j).value = some v := by
    rw [mem_set?_property hsep hkeys hp, hj]
    simp
  cases hvalue : (readValue o (path.key p.key) p.shape j).value with
  | some v =>
      rw [fields_foldl_addPart]
      apply Table.get?_putAll_of_unique (hset.2 hvalue)
      intro v' hv'
      have hvalue' := hset.1 hv'
      rw [hvalue] at hvalue'
      exact (Option.some.inj hvalue').symm
  | none =>
      rw [get?_foldl_of_unset, get?_blank_of_property hsep.fields hp, Option.getD_none]
      intro v hv
      have hvalue' := hset.1 hv
      rw [hvalue] at hvalue'
      cases hvalue'

/-- The record that an object with distinct keys is read as accounts for its members. -/
theorem accounts_foldl (hsep : Separate t.properties t.derived)
    (hkeys : (members.map (·.1)).Nodup) :
    Accounts o t path members ((memberParts o t path members).foldl addPart t.blank)
      (memberFindings o t path members) := by
  refine ⟨lineage_foldl_addPart t.blank _, keys_foldl_addPart, ?_, ?_, ?_, ?_, ?_, ?_⟩
  · intro p hp j hj
    rw [field_of_present hsep hkeys hp hj]
    cases hvalue : (readValue o (path.key p.key) p.shape j).value with
    | some v => exact .inl ⟨v, rfl, rfl⟩
    | none =>
        obtain ⟨f, hf⟩ := List.exists_mem_of_ne_nil _ (findings_ne_nil_of_value_eq_none hvalue)
        refine .inr ⟨rfl, rfl, f, ?_, hf⟩
        apply mem_memberFindings (Table.mem_of_get? hj)
        rw [readMember_of_property ((ObjectType.property?_eq_some_iff hsep.keys).2 ⟨hp, rfl⟩)]
        exact hf
  · intro p hp habsent
    rw [get?_foldl_of_unset, get?_blank_of_property hsep.fields hp]
    intro v hv
    obtain ⟨j, hj, -⟩ := (mem_set?_property hsep hkeys hp).1 hv
    rw [Table.get?_eq_none_iff.2 habsent] at hj
    cases hj
  · intro name hname
    rw [get?_foldl_of_unset, get?_blank_of_derived hsep.fields hname]
    intro v hv
    obtain ⟨m, -, p, hp, rfl, -⟩ := mem_set?_memberParts.1 hv
    have hfield := List.mem_map_of_mem (List.mem_of_find?_eq_some hp) (f := (·.field))
    exact (List.nodup_append'.1 hsep.fields).2.2 hfield hname
  · rw [extensions_foldl_addPart, filterMap_extensions?_memberParts hkeys
      (ObjectType.property?_eq_none_iff.2 hsep.extensions)]
    cases Table.get? members "extensions" <;> rfl
  · rw [extras_foldl_addPart, filterMap_extras?_memberParts hkeys
      (ObjectType.property?_eq_none_iff.2 hsep.extras)]
    cases Table.get? members "extras" <;> rfl
  · rw [unknown_foldl_memberParts hkeys, filterMap_unknown?_memberParts]

end

end Reading

end Gltf
