import Gltf.Proofs.Reading.Typing
import Mathlib

/-!
What is in a record that has been read, whatever the JSON was: every value that the reader lets into
a record has the shape that the schema gives it, and what does not fit leaves the initial value.
-/

namespace Gltf.Reading

section
variable {o : Options} {lax : Bool}

/-! ### Leaves and shapes -/

theorem toInt?_of_coerce? {n : Number} {i : Int} (h : n.coerce? .int32 = some (.int i)) :
    n.toInt? = some i := by
  simp only [Number.coerce?, NumberKind.range] at h
  split at h
  · rename_i i' hi
    split_ifs at h
    cases h
    exact hi
  · cases h

theorem hasForm_readLeaf {path : Path} {form : Form} {j : Json} {v : Value}
    (h : (readLeaf path form j).value = some v) : HasForm o lax form j v := by
  cases form with
  | bool =>
      cases j with
      | bool b =>
          cases h
          exact .bool b
      | _ => cases h
  | string =>
      cases j with
      | string s =>
          cases h
          exact .string s
      | _ => cases h
  | number kind =>
      cases j with
      | number n =>
          simp only [readLeaf, readNumber] at h
          cases hn : n.coerce? kind with
          | none => simp [hn, Outcome.refuse] at h
          | some n' =>
              rw [hn] at h
              cases h
              exact hasForm_number hn
      | _ => cases h
  | intEnum e =>
      cases j with
      | number n =>
          simp only [readLeaf, readIntEnum] at h
          split at h
          · rename_i i hi
            split_ifs at h with hmember
            · cases h
              exact .intEnum (toInt?_of_coerce? hi) (by simpa using hmember)
            · cases h
          · cases h
      | _ => cases h
  | stringEnum e =>
      cases j with
      | string s =>
          simp only [readLeaf, readStringEnum] at h
          split_ifs at h with hmember
          · cases h
            exact .stringEnum (by simpa using hmember)
          · cases h
      | _ => cases h
  | any =>
      cases h
      exact .any j
  | _ => cases h

/-- A shape gives what the forms in it give; the hypothesis on nulls passes to them. -/
theorem hasShape_readValue {j : Json} {v : Value}
    (ih : ∀ path form v, lax = true ∨ form.listsNulls = true →
      (readForm o path form j).value = some v → HasForm o lax form j v)
    {path : Path} {shape : Shape} (hnulls : lax = true ∨ shape.listsNulls = true)
    (h : (readValue o path shape j).value = some v) : HasShape o lax shape j v := by
  cases shape with
  | required form => exact .required (ih path form v hnulls h)
  | optional form =>
      by_cases hj : j = .null
      · subst hj
        cases h
        exact .absent form
      · rw [readValue_optional_of_ne o path hj] at h
        exact .optional (ih path form v hnulls h)
  | choice forms text listsNull =>
      rw [Shape.listsNulls, Bool.and_eq_true, formsListNulls_iff] at hnulls
      by_cases hj : j = .null
      · subst hj
        cases h
        rcases hnulls with hlax | ⟨rfl, -⟩
        · exact .unlistedNull forms text listsNull hlax
        · exact .listedNull forms text
      · rw [readValue_choice_of_ne o path hj] at h
        cases hfound : forms.findSome? fun form => (readForm o path form j).clean? with
        | none =>
            rw [hfound] at h
            cases h
        | some v' =>
            rw [hfound] at h
            cases h
            obtain ⟨form, hmem, hv⟩ := List.exists_of_findSome?_eq_some hfound
            rw [Outcome.clean?] at hv
            split_ifs at hv
            exact .choice hmem (ih path form v (hnulls.imp_right fun h => h.2 form hmem) hv)

/-! ### Lists and maps -/

theorem hasItems_filterMap {item : Shape} {values : List Json} {outcome : Nat → Json → Outcome}
    (h : ∀ j ∈ values, ∀ i v, (outcome i j).value = some v → HasShape o lax item j v) :
    HasItems o lax item values ((values.mapIdx outcome).filterMap (·.value)) := by
  induction values generalizing outcome with
  | nil => exact .nil item
  | cons j values ih =>
      have htail : HasItems o lax item values
          ((values.mapIdx fun i => outcome (i + 1)).filterMap (·.value)) :=
        ih fun j hj i v => h j (List.mem_cons_of_mem _ hj) (i + 1) v
      rw [List.mapIdx_cons, List.filterMap_cons]
      cases hvalue : (outcome 0 j).value with
      | none => exact .drop j htail
      | some v => exact .keep (h j List.mem_cons_self 0 v hvalue) htail

theorem hasEntries_presentEntries {item : Shape} {members : List (String × Json)}
    {outcome : String × Json → Outcome}
    (h : ∀ m ∈ members, ∀ v, (outcome m).value = some v → HasShape o lax item m.2 v) :
    HasEntries o lax item members (presentEntries (members.map fun m => (m.1, outcome m))) := by
  induction members with
  | nil => exact .nil item
  | cons m members ih =>
      have htail := ih fun m hm => h m (List.mem_cons_of_mem _ hm)
      rw [List.map_cons, presentEntries, List.filterMap_cons]
      cases hvalue : (outcome m).value with
      | none =>
          simp only [hvalue, Option.map_none]
          exact .drop m htail
      | some v =>
          simp only [hvalue, Option.map_some]
          exact .keep m.1 (h m List.mem_cons_self v hvalue) htail

/-! ### Records -/

/-- What a part may bring into a record of a type. -/
def PartFits (o : Options) (lax : Bool) (t : ObjectType) (members : List (String × Json)) :
    Part → Prop
  | .field name (some v) => name ∈ t.properties.map (·.field) ∧ HasField o lax t members name v
  | .extensions entries => ∀ e ∈ entries, HasExtension o lax t.lineage.chain members e.1 e.2
  | _ => True

theorem isInstance_addPart {t : ObjectType} {members : List (String × Json)} {r : Record}
    {part : Part} (h : IsInstance o lax t members r) (hpart : PartFits o lax t members part) :
    IsInstance o lax t members (addPart r part) := by
  obtain ⟨hlineage, hnames, hfields, hextensions⟩ := h
  cases part with
  | field name value =>
      cases value with
      | none => exact ⟨hlineage, hnames, hfields, hextensions⟩
      | some v =>
          -- A field that is there keeps its place, so the names stay as they are.
          have hname : name ∈ r.fields.map (·.1) := by
            rw [hnames]
            exact List.mem_append_left _ hpart.1
          refine ⟨hlineage, (Table.keys_put_of_mem hname).trans hnames, ?_, hextensions⟩
          intro f hf
          rcases Table.mem_put hf with rfl | hf
          · exact hpart.2
          · exact hfields f hf
  | extensions entries => exact ⟨hlineage, hnames, hfields, hpart⟩
  | extras value => exact ⟨hlineage, hnames, hfields, hextensions⟩
  | unknown key value => exact ⟨hlineage, hnames, hfields, hextensions⟩
  | dropped => exact ⟨hlineage, hnames, hfields, hextensions⟩

theorem isInstance_foldl_addPart {t : ObjectType} {members : List (String × Json)} {r : Record}
    {parts : List Part} (h : IsInstance o lax t members r)
    (hparts : ∀ part ∈ parts, PartFits o lax t members part) :
    IsInstance o lax t members (parts.foldl addPart r) := by
  induction parts generalizing r with
  | nil => exact h
  | cons part parts ih =>
      rw [List.foldl_cons]
      apply ih
      · exact isInstance_addPart h (hparts part List.mem_cons_self)
      · exact fun part hpart => hparts part (List.mem_cons_of_mem _ hpart)

theorem partFits_readMember {t : ObjectType} {path : Path} {members : List (String × Json)}
    {m : String × Json} (hm : m ∈ members)
    (hvalue : ∀ p path v, t.property? m.1 = some p → (readValue o path p.shape m.2).value = some v →
      HasShape o lax p.shape m.2 v)
    (hblock : m.1 = "extensions" → ∀ path, ∀ e ∈ (readBlock o t.lineage.chain path m.2).1,
      HasExtension o lax t.lineage.chain members e.1 e.2) :
    PartFits o lax t members (readMember o t path m.1 m.2).1 := by
  cases hproperty : t.property? m.1 with
  | some p =>
      have hp : p ∈ t.properties := List.mem_of_find?_eq_some hproperty
      have hkey : p.key = m.1 := by simpa using List.find?_some hproperty
      simp only [readMember, hproperty]
      cases hv : (readValue o (path.key m.1) p.shape m.2).value with
      | none => trivial
      | some v =>
          refine ⟨List.mem_map_of_mem hp, .read hp ?_ (hvalue p _ v hproperty hv)⟩
          rw [hkey]
          exact hm
  | none =>
      simp only [readMember, hproperty, readOther]
      split_ifs with hextensions
      · exact hblock hextensions _
      · trivial
      · trivial
      · trivial

/-! ### Extensions -/

theorem callReader_eq_some {path : Path} {read : List (String × Json) → Except String Reported}
    {j : Json} {v : Value} (h : (callReader path read j).value = some v) :
    ∃ members reported, j = .object members ∧ read members = .ok reported ∧
      reported.value = some v := by
  cases j with
  | object members =>
      rw [callReader] at h
      cases hcall : read members with
      | error text => simp [hcall, Outcome.refuse] at h
      | ok reported =>
          rw [hcall] at h
          exact ⟨members, reported, rfl, hcall, h⟩
  | _ => cases h

/-- An extension is kept as JSON, read as a record, or made of it by a function. -/
theorem readExtension_eq_some {chain : List String} {path : Path} {name : String} {j : Json}
    {v : Value} (h : (readExtension o chain path name j).value = some v) :
    v = .json j ∨
      (∃ t, o.handler? chain name = some (.record t) ∧
        (readForm o (path.key name) (.object t) j).value = some v) ∨
      ∃ function read members reported, o.handler? chain name = some (.function function read) ∧
        j = .object members ∧ read members = .ok reported ∧ reported.value = some v := by
  rw [readExtension] at h
  split_ifs at h
  cases hhandler : o.handler? chain name with
  | none =>
      rw [hhandler] at h
      exact .inl (Option.some.inj h).symm
  | some handler =>
      rw [hhandler] at h
      cases handler with
      | record t =>
          simp only [extensionOutcome, Option.some.injEq] at h
          cases hread : (readForm o (path.key name) (.object t) j).value with
          | none =>
              rw [hread] at h
              exact .inl h.symm
          | some v' =>
              rw [hread] at h
              exact .inr (.inl ⟨t, rfl, h ▸ hread⟩)
      | function function read =>
          simp only [extensionOutcome, Option.some.injEq] at h
          cases hcall : (callReader (path.key name) read j).value with
          | none =>
              rw [hcall] at h
              exact .inl h.symm
          | some v' =>
              rw [hcall] at h
              obtain ⟨inner, reported, hj, hread, hvalue⟩ := callReader_eq_some hcall
              exact .inr (.inr ⟨function, read, inner, reported, rfl, hj, hread, h ▸ hvalue⟩)

theorem hasExtension_readExtension {chain : List String} {path : Path}
    {members entries : List (String × Json)} {name : String} {j : Json} {v : Value}
    (block : ("extensions", .object entries) ∈ members) (entry : (name, j) ∈ entries)
    (ih : ∀ t path v, o.handler? chain name = some (.record t) →
      (readForm o path (.object t) j).value = some v → HasForm o lax (.object t) j v)
    (h : (readExtension o chain path name j).value = some v) :
    HasExtension o lax chain members name v := by
  rcases readExtension_eq_some h with rfl | ⟨t, hhandler, hread⟩ |
    ⟨function, read, inner, reported, hhandler, rfl, hcall, hvalue⟩
  · exact .raw block entry
  · cases ih t _ _ hhandler hread with
    | object hinstance => exact .record block entry hhandler hinstance
  · exact .function block entry hhandler hcall hvalue

theorem hasExtension_readBlock {chain : List String} {path : Path}
    {members entries : List (String × Json)} (block : ("extensions", .object entries) ∈ members)
    (ih : ∀ e ∈ entries, ∀ t path v, o.handler? chain e.1 = some (.record t) →
      (readForm o path (.object t) e.2).value = some v → HasForm o lax (.object t) e.2 v) :
    ∀ e ∈ (readBlock o chain path (.object entries)).1,
      HasExtension o lax chain members e.1 e.2 := by
  intro e he
  simp only [readBlock, presentEntries, List.filterMap_map, List.mem_filterMap, Function.comp_apply,
    Option.map_eq_some_iff] at he
  obtain ⟨e', he', v, hv, rfl⟩ := he
  exact hasExtension_readExtension block he' (ih e' he') hv

/-! ### Values -/

/-- What the induction over JSON carries: forms give typed values, and so do the readers of
extensions if it is what stands there. -/
def Typed (o : Options) (lax : Bool) (j : Json) : Prop :=
  (∀ path form v, lax = true ∨ form.listsNulls = true →
    (readForm o path form j).value = some v → HasForm o lax form j v) ∧
  ∀ path chain members, ("extensions", j) ∈ members →
    ∀ e ∈ (readBlock o chain path j).1, HasExtension o lax chain members e.1 e.2

theorem isInstance_assemble {t : ObjectType} {path : Path} {members : List (String × Json)}
    (hparts : ∀ m ∈ members, PartFits o lax t members (readMember o t path m.1 m.2).1) :
    IsInstance o lax t members
      ((members.map fun m => (readMember o t path m.1 m.2).1).foldl addPart t.blank) := by
  apply isInstance_foldl_addPart (isInstance_blank members Schema.initialsFit_of_mem)
  intro part hpart
  obtain ⟨m, hm, rfl⟩ := List.mem_map.1 hpart
  exact hparts m hm

theorem typed (ho : lax = true ∨ o.ListsNulls) (j : Json) : Typed o lax j := by
  refine inductionOn (fun path form j => ∀ v, lax = true ∨ form.listsNulls = true →
    (readForm o path form j).value = some v → HasForm o lax form j v) (fun path chain j =>
    ∀ members, ("extensions", j) ∈ members → ∀ e ∈ (readBlock o chain path j).1,
      HasExtension o lax chain members e.1 e.2) j ?list ?map ?object ?leaf ?extensions ?none
  case list =>
    intro path item items ih v hnulls h
    rw [readForm_array_list] at h
    cases h
    exact .list (hasItems_filterMap fun j hj i v => hasShape_readValue (ih j hj) hnulls)
  case map =>
    intro path item members ih v hnulls h
    rw [readForm_object_map] at h
    cases h
    exact .map (hasEntries_presentEntries fun m hm v => hasShape_readValue (ih m hm) hnulls)
  case object =>
    intro path t members ih v hnulls h
    rw [readForm_object_object] at h
    simp only [assemble, List.map_map, Option.some.injEq] at h
    subst h
    refine .object (isInstance_assemble fun m hm => partFits_readMember hm ?_ ?_)
    · intro p path v hproperty
      have hp : p ∈ t.properties := List.mem_of_find?_eq_some hproperty
      exact hasShape_readValue (ih m hm).1 (hnulls.imp_right fun h => t.listsNulls_iff.1 h p hp)
    · intro hkey path
      apply (ih m hm).2
      rw [← hkey]
      exact hm
  case leaf =>
    intro path form j hopens v _ h
    rw [readForm_of_not_opens o path hopens] at h
    exact hasForm_readLeaf h
  case extensions =>
    intro path chain entries ih members hm
    refine hasExtension_readBlock hm fun e he t path v hhandler => ?_
    exact ih e he path (.object t) v (ho.imp_right fun h => h.of_handler? hhandler)
  case none =>
    intro path chain j hobject members hm e he
    rw [readBlock_of_ne_object o path hobject] at he
    cases he

end

/-- Whatever JSON is read, a record that comes of it is an instance of the object type, apart from
null in choices: the reader lets it through where a choice does not list it. Where the choices of
all handlers list null, as those of glTF and of the extensions read out of the box do, null is only
where the shape of a field has room for it. -/
theorem isInstance_of_readRecord (o : Options) (t : ObjectType) (path : Path) (raw : Json)
    (r : Record) (findings : List Finding) (h : readRecord o t path raw = (some r, findings)) :
    ∃ members, raw = .object members ∧ IsInstance o true t members r ∧
      (t ∈ Schema.allTypes → o.ListsNulls → IsInstance o false t members r) := by
  have hvalue : (readForm o path (.object t) raw).value = some (.record r) := by
    have hrecord := congrArg Prod.fst h
    simp only [readRecord, Option.bind_eq_some_iff] at hrecord
    obtain ⟨v, hv, hr⟩ := hrecord
    cases v <;> simp_all [Value.record?]
  have hform := (typed (.inl rfl) raw).1 path _ _ (.inl rfl) hvalue
  obtain ⟨members, rfl⟩ : ∃ members, raw = .object members := by
    cases hform
    exact ⟨_, rfl⟩
  refine ⟨members, rfl, ?_, fun ht ho => ?_⟩
  · cases hform with
    | object hinstance => exact hinstance
  · have hnulls : t.listsNulls = true := Schema.listsNulls_of_mem t ht
    cases (typed (.inr ho) _).1 path (.object t) _ (.inr hnulls) hvalue with
    | object hinstance => exact hinstance

/-- Of two numbers the second is out of range and left out, and a boolean stands for no name. -/
theorem isInstance_of_readRecord_scene :
    let members : List (String × Json) :=
      [("nodes", .array [.number (.int 3), .number (.int 0x80000000)]), ("name", .bool true)]
    ∃ r findings, readRecord {} Schema.scene ⟨"", []⟩ (.object members) = (some r, findings) ∧
      r.fields = [("nodes", .list [.ofInt 3]), ("name", .null)] ∧
      IsInstance {} false Schema.scene members r := by
  intro members
  have hscene : Schema.scene ∈ Schema.allTypes := by
    simp [Schema.allTypes, Schema.coreTypes]
  refine ⟨_, _, rfl, rfl, ?_⟩
  obtain ⟨members', heq, -, hstrict⟩ :=
    isInstance_of_readRecord {} Schema.scene ⟨"", []⟩ (.object members) _ _ rfl
  cases heq
  exact hstrict hscene Options.listsNulls_default

theorem ne_null_of_hasField_vendorMix {o : Options} {members : List (String × Json)} {name : String}
    {v : Value} (h : HasField o false Schema.vendorMix members name v) : v ≠ .null := by
  have hinitial (p : Property) (hp : p ∈ Schema.vendorMix.properties) : p.initial ≠ .null := by
    obtain rfl := List.mem_singleton.1 hp
    rintro ⟨⟩
  cases h with
  | read property member h =>
      obtain rfl := List.mem_singleton.1 property
      rintro rfl
      rcases h with _ | _ | _ | ⟨hmem, h⟩ | _ | ⟨_, _, _, h⟩
      · simp only [List.mem_cons, List.not_mem_nil, or_false] at hmem
        rcases hmem with rfl | rfl <;> cases h
      · cases h
  | initial _ property h => exact hinitial _ property
  | declared _ property foreign => exact hinitial _ property
  | derived _ h => cases h

/-- Null in a choice of a handler that does not list it becomes the value of the field. -/
theorem readRecord_unlisted_null :
    ∃ r, readRecord .withVendorMix Schema.scene ⟨"", []⟩
        (.object [("extensions", .object [("VENDOR_mix", .object [("choice", .null)])])]) =
          (some r, []) ∧
      ∀ members, ¬IsInstance .withVendorMix false Schema.scene members r := by
  have hlookup : Options.withVendorMix.handler? Schema.scene.lineage.chain "VENDOR_mix" =
      some (.record Schema.vendorMix) := rfl
  refine ⟨_, rfl, ?_⟩
  rintro members ⟨-, -, -, hextensions⟩
  have hextension := hextensions _ List.mem_cons_self
  cases hextension with
  | record block entry handler h =>
      rw [hlookup] at handler
      cases handler
      obtain ⟨-, -, hfields, -⟩ := h
      exact ne_null_of_hasField_vendorMix (hfields _ List.mem_cons_self) rfl
  | function block entry handler call value =>
      rw [hlookup] at handler
      cases handler

end Gltf.Reading
