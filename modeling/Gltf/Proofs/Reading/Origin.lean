import Gltf.Proofs.Json.Keys
import Gltf.Proofs.Reading.Members
import Gltf.Proofs.Reading.WellTyped
import Mathlib

/-!
Where the records inside a record come from. Each was read from an object inside the JSON and
accounts for the members of that object, or is part of the initial value of a property, or of what a
reader function made of an extension. What was found in it is among what was found in the whole,
behind the extensions on the way.
-/

namespace Gltf

/-- `Holds v r`: the record `r` is `v` or stands inside it. -/
inductive Value.Holds : Value → Record → Prop
  | self (r : Record) : Holds (.record r) r
  | item {items : List Value} {v : Value} {r : Record} (hv : v ∈ items) (h : Holds v r) :
      Holds (.list items) r
  | entry {entries : List (String × Value)} {e : String × Value} {r : Record} (he : e ∈ entries)
      (h : Holds e.2 r) : Holds (.map entries) r
  | field {outer : Record} {f : String × Value} {r : Record} (hf : f ∈ outer.fields)
      (h : Holds f.2 r) : Holds (.record outer) r
  | extension {outer : Record} {e : String × Value} {r : Record} (he : e ∈ outer.extensions)
      (h : Holds e.2 r) : Holds (.record outer) r

theorem Value.not_holds_json (j : Json) (r : Record) : ¬(Value.json j).Holds r := by
  intro h
  cases h

/-- A bare value only holds records without extras and unknown members. -/
theorem Value.Holds.bare {v : Value} {r : Record} (h : v.Holds r) (hbare : v.isBare = true) :
    r.extras = .null ∧ r.unknown = [] := by
  induction h with
  | self r =>
      obtain ⟨hextras, hunknown, -, -⟩ := r.isBare_iff.1 hbare
      exact ⟨hextras, hunknown⟩
  | item hv h ih => exact ih ((itemsAreBare_iff _).1 hbare _ hv)
  | entry he h ih => exact ih ((entriesAreBare_iff _).1 hbare _ he)
  | @field outer f r hf h ih =>
      obtain ⟨-, -, hfields, -⟩ := outer.isBare_iff.1 hbare
      exact ih (hfields _ hf)
  | @extension outer e r he h ih =>
      obtain ⟨-, -, -, hextensions⟩ := outer.isBare_iff.1 hbare
      exact ih (hextensions _ he)

theorem Json.Contains.trans {a b c : Json} (hab : Json.Contains a b) (hbc : Json.Contains b c) :
    Json.Contains a c := by
  induction hab with
  | self => exact hbc
  | item hv h ih => exact .item hv (ih hbc)
  | member hm h ih => exact .member hm (ih hbc)

/-- A finding as it is told outside of extensions. -/
def Finding.behind (scope : List String) (f : Finding) : Finding :=
  { f with scope := scope ++ f.scope }

@[simp] theorem Finding.behind_nil (f : Finding) : f.behind [] = f := rfl

theorem Finding.behind_behind (outer inner : List String) (f : Finding) :
    (f.behind inner).behind outer = f.behind (outer ++ inner) := by
  simp [Finding.behind]

namespace Reading

/-- What is found inside is told outside, behind some extensions. -/
def Tells (outer inner : List Finding) : Prop := ∃ scope, ∀ f ∈ inner, f.behind scope ∈ outer

theorem Tells.of_subset {outer inner : List Finding} (h : inner ⊆ outer) : Tells outer inner :=
  ⟨[], fun _ hf => h hf⟩

theorem Tells.trans {a b c : List Finding} (hab : Tells a b) (hbc : Tells b c) : Tells a c := by
  obtain ⟨outer, houter⟩ := hab
  obtain ⟨inner, hinner⟩ := hbc
  refine ⟨outer ++ inner, fun f hf => ?_⟩
  rw [← Finding.behind_behind]
  exact houter _ (hinner f hf)

/-- The origins of a record in what a JSON value is read as, with these findings. -/
inductive Origin (o : Options) (raw : Json) (findings : List Finding) : Record → Prop
  | read {t : ObjectType} {path : Path} {members : List (String × Json)} {r : Record}
      {inner : List Finding} (inside : raw.Contains (.object members))
      (read : readRecord o t path (.object members) = (some r, inner))
      (accounts : Accounts o t path members r inner) (told : Tells findings inner) :
      Origin o raw findings r
  /-- It stands in a field that was left as it is declared. -/
  | declared {t : ObjectType} {path : Path} {members : List (String × Json)} {outer r : Record}
      {inner : List Finding} {p : Property} (inside : raw.Contains (.object members))
      (read : readRecord o t path (.object members) = (some outer, inner))
      (accounts : Accounts o t path members outer inner) (property : p ∈ t.properties)
      (left : Table.get? outer.fields p.field = some p.initial) (holds : p.initial.Holds r)
      (extras : r.extras = .null) (unknown : r.unknown = []) : Origin o raw findings r
  | returned {key : String × String} {function : String}
      {read : List (String × Json) → Except String Reported} {members : List (String × Json)}
      {reported : Reported} {v : Value} {r : Record}
      (handler : (key, .function function read) ∈ o.registry)
      (inside : raw.Contains (.object members)) (call : read members = .ok reported)
      (value : reported.value = some v) (holds : v.Holds r) : Origin o raw findings r

section
variable {o : Options} {raw inner : Json} {findings found : List Finding} {r : Record}

theorem Origin.mono (h : Origin o inner found r) (hinside : raw.Contains inner)
    (htold : Tells findings found) : Origin o raw findings r := by
  cases h with
  | read inside read accounts told =>
      exact .read (hinside.trans inside) read accounts (htold.trans told)
  | declared inside read accounts property left holds extras unknown =>
      exact .declared (hinside.trans inside) read accounts property left holds extras unknown
  | returned handler inside call value holds =>
      exact .returned handler (hinside.trans inside) call value holds

/-! ### Values without records -/

theorem eq_json_of_readNumber {kind : NumberKind} {path : Path} {j : Json} {v : Value}
    (h : (readNumber kind path j).value = some v) : ∃ j', v = .json j' := by
  cases j with
  | number n =>
      rw [readNumber] at h
      split at h
      · cases h
        exact ⟨_, rfl⟩
      · cases h
  | _ => cases h

theorem eq_json_of_readIntEnum {e : IntEnum} {path : Path} {j : Json} {v : Value}
    (h : (readIntEnum e path j).value = some v) : ∃ j', v = .json j' := by
  cases j with
  | number n =>
      rw [readIntEnum] at h
      split at h
      · split_ifs at h
        · cases h
          exact ⟨_, rfl⟩
        · cases h
      · cases h
  | _ => cases h

theorem eq_json_of_readStringEnum {e : StringEnum} {path : Path} {j : Json} {v : Value}
    (h : (readStringEnum e path j).value = some v) : ∃ j', v = .json j' := by
  cases j with
  | string s =>
      rw [readStringEnum] at h
      split_ifs at h
      · cases h
        exact ⟨_, rfl⟩
      · cases h
  | _ => cases h

theorem eq_json_of_readLeaf {form : Form} {path : Path} {j : Json} {v : Value}
    (h : (readLeaf path form j).value = some v) : ∃ j', v = .json j' := by
  cases form with
  | any =>
      cases h
      exact ⟨j, rfl⟩
  | bool =>
      cases j with
      | bool b =>
          cases h
          exact ⟨_, rfl⟩
      | _ => cases h
  | string =>
      cases j with
      | string s =>
          cases h
          exact ⟨_, rfl⟩
      | _ => cases h
  | number kind => exact eq_json_of_readNumber h
  | intEnum e => exact eq_json_of_readIntEnum h
  | stringEnum e => exact eq_json_of_readStringEnum h
  | list item => cases h
  | map item => cases h
  | object t => cases h
  | unreadable text => cases h

theorem not_holds_of_not_opens {path : Path} {form : Form} {j : Json} {v : Value}
    (hopens : ¬Opens form j) (hv : (readForm o path form j).value = some v) : ¬v.Holds r := by
  rw [readForm_of_not_opens o path hopens] at hv
  obtain ⟨j', rfl⟩ := eq_json_of_readLeaf hv
  exact Value.not_holds_json _ _

/-! ### Records in containers -/

theorem mem_presentEntries {outcomes : List (String × Outcome)} {e : String × Value} :
    e ∈ presentEntries outcomes ↔ ∃ out, (e.1, out) ∈ outcomes ∧ out.value = some e.2 := by
  simp only [presentEntries, List.mem_filterMap, Option.map_eq_some_iff]
  constructor
  · rintro ⟨⟨key, out⟩, hout, v, hv, rfl⟩
    exact ⟨out, hout, hv⟩
  · rintro ⟨out, hout, hv⟩
    exact ⟨(e.1, out), hout, e.2, hv, rfl⟩

/-- The records in a list that is read are those in its items. -/
theorem holds_list {path : Path} {item : Shape} {values : List Json} {v : Value}
    (hv : (readForm o path (.list item) (.array values)).value = some v) (hr : v.Holds r) :
    ∃ (i : Nat) (hi : i < values.length) (v' : Value),
      (readValue o (path.index i) item values[i]).value = some v' ∧ v'.Holds r := by
  rw [readForm_array_list] at hv
  cases hv
  cases hr with
  | @item _ v' _ hmem hholds =>
      obtain ⟨out, hout, hvalue⟩ := List.mem_filterMap.1 hmem
      obtain ⟨i, hi, rfl⟩ := List.mem_mapIdx.1 hout
      exact ⟨i, hi, v', hvalue, hholds⟩

theorem holds_map {path : Path} {item : Shape} {members : List (String × Json)} {v : Value}
    (hv : (readForm o path (.map item) (.object members)).value = some v) (hr : v.Holds r) :
    ∃ m ∈ members, ∃ v', (readValue o (path.key m.1) item m.2).value = some v' ∧ v'.Holds r := by
  rw [readForm_object_map] at hv
  cases hv
  cases hr with
  | @entry _ e _ hmem hholds =>
      obtain ⟨out, hout, hvalue⟩ := mem_presentEntries.1 hmem
      obtain ⟨m, hm, heq⟩ := List.mem_map.1 hout
      obtain ⟨-, rfl⟩ := Prod.mk.inj heq
      exact ⟨m, hm, e.2, hvalue, hholds⟩

/-- The entries that are read from the extensions of an object. -/
theorem exists_of_mem_readBlock {chain : List String} {path : Path} {j : Json} {e : String × Value}
    (he : e ∈ (readBlock o chain path j).1) :
    ∃ entries j', j = .object entries ∧ (e.1, j') ∈ entries ∧
      (readExtension o chain path e.1 j').value = some e.2 := by
  cases j with
  | object entries =>
      obtain ⟨out, hout, hvalue⟩ := mem_presentEntries.1 he
      obtain ⟨m, hm, heq⟩ := List.mem_map.1 hout
      obtain ⟨hname, rfl⟩ := Prod.mk.inj heq
      exact ⟨entries, m.2, rfl, hname ▸ hm, hname ▸ hvalue⟩
  | _ => cases he

/-! ### Shapes, lists and maps -/

/-- Each record in what is read in the forms of a value has an origin there. -/
def Traces (o : Options) (j : Json) : Prop :=
  ∀ path form v r, form.isRegular = true → (readForm o path form j).value = some v → v.Holds r →
    Origin o j (readForm o path form j).findings r

theorem origin_readValue {j : Json} (ih : Traces o j) {path : Path} {shape : Shape} {v : Value}
    (hregular : shape.isRegular = true) (hv : (readValue o path shape j).value = some v)
    (hr : v.Holds r) : Origin o j (readValue o path shape j).findings r := by
  cases shape with
  | required form => exact ih path form v r hregular hv hr
  | optional form =>
      by_cases hj : j = .null
      · subst hj
        cases hv
        exact absurd hr (Value.not_holds_json _ _)
      · rw [readValue_optional_of_ne o path hj] at hv ⊢
        exact ih path form v r hregular hv hr
  | choice forms text listsNull =>
      rw [Shape.isRegular, formsAreRegular_iff] at hregular
      by_cases hj : j = .null
      · subst hj
        cases hv
        exact absurd hr (Value.not_holds_json _ _)
      · rw [readValue_choice_of_ne o path hj] at hv ⊢
        cases hfound : forms.findSome? fun form => (readForm o path form j).clean? with
        | none =>
            rw [hfound] at hv
            cases hv
        | some v' =>
            rw [hfound] at hv
            cases hv
            -- What is chosen was read without a finding.
            obtain ⟨form, hmem, hclean⟩ := List.exists_of_findSome?_eq_some hfound
            rw [Outcome.clean?] at hclean
            split_ifs at hclean with hempty
            have hnone : (readForm o path form j).findings = [] := List.isEmpty_iff.1 hempty
            have horigin := ih path form v r (hregular form hmem) hclean hr
            rwa [hnone] at horigin

theorem origin_list {item : Shape} {values : List Json} (ih : ∀ j ∈ values, Traces o j)
    {path : Path} {v : Value} (hregular : item.isRegular = true)
    (hv : (readForm o path (.list item) (.array values)).value = some v) (hr : v.Holds r) :
    Origin o (.array values) (readForm o path (.list item) (.array values)).findings r := by
  obtain ⟨i, hi, v', hvalue, hholds⟩ := holds_list hv hr
  have hitem : values[i] ∈ values := List.getElem_mem hi
  refine (origin_readValue (ih _ hitem) hregular hvalue hholds).mono (.item hitem (.self _))
    (.of_subset fun f hf => ?_)
  rw [readForm_array_list]
  exact List.mem_flatMap.2 ⟨_, List.mem_mapIdx.2 ⟨i, hi, rfl⟩, hf⟩

theorem origin_map {item : Shape} {members : List (String × Json)}
    (ih : ∀ m ∈ members, Traces o m.2) {path : Path} {v : Value}
    (hregular : item.isRegular = true)
    (hv : (readForm o path (.map item) (.object members)).value = some v) (hr : v.Holds r) :
    Origin o (.object members) (readForm o path (.map item) (.object members)).findings r := by
  obtain ⟨m, hm, v', hvalue, hholds⟩ := holds_map hv hr
  refine (origin_readValue (ih m hm) hregular hvalue hholds).mono (.member hm (.self _))
    (.of_subset fun f hf => ?_)
  rw [readForm_object_map]
  exact List.mem_flatMap.2 ⟨_, List.mem_map.2 ⟨m, hm, rfl⟩, hf⟩

/-! ### Extensions -/

theorem origin_readExtension {chain : List String} {path : Path} {name : String} {j : Json}
    {v : Value} (ih : Traces o j) (ho : o.Regular)
    (hv : (readExtension o chain path name j).value = some v) (hr : v.Holds r) :
    Origin o j (readExtension o chain path name j).findings r := by
  rw [readExtension] at hv ⊢
  by_cases hdisabled : o.resolve chain name = .disabled
  · rw [if_pos hdisabled] at hv
    cases hv
  · rw [if_neg hdisabled] at hv ⊢
    cases hhandler : o.handler? chain name with
    | none =>
        rw [hhandler] at hv
        cases hv
        exact absurd hr (Value.not_holds_json _ _)
    | some handler =>
        rw [hhandler] at hv
        cases handler with
        | record t =>
            simp only [extensionOutcome, Option.some.injEq] at hv ⊢
            cases hread : (readForm o (path.key name) (.object t) j).value with
            | none =>
                rw [hread] at hv
                subst hv
                exact absurd hr (Value.not_holds_json _ _)
            | some v' =>
                rw [hread] at hv
                subst hv
                refine (ih _ (.object t) _ r (ho.of_handler? hhandler) hread hr).mono (.self j)
                  ⟨[name], fun f hf => ?_⟩
                exact List.mem_map.2 ⟨f, hf, rfl⟩
        | function function read =>
            simp only [extensionOutcome, Option.some.injEq] at hv ⊢
            cases hcall : (callReader (path.key name) read j).value with
            | none =>
                rw [hcall] at hv
                subst hv
                exact absurd hr (Value.not_holds_json _ _)
            | some v' =>
                rw [hcall] at hv
                subst hv
                obtain ⟨members, reported, rfl, hread, hvalue⟩ := callReader_eq_some hcall
                obtain ⟨key, hkey⟩ := Options.mem_registry_of_handler? hhandler
                exact .returned hkey (.self _) hread hvalue hr

theorem origin_readBlock {chain : List String} {path : Path} {entries : List (String × Json)}
    {e : String × Value} (ih : ∀ e ∈ entries, Traces o e.2) (ho : o.Regular)
    (he : e ∈ (readBlock o chain path (.object entries)).1) (hr : e.2.Holds r) :
    Origin o (.object entries) (readBlock o chain path (.object entries)).2 r := by
  obtain ⟨_, j, heq, hm, hvalue⟩ := exists_of_mem_readBlock he
  cases heq
  refine (origin_readExtension (ih _ hm) ho hvalue hr).mono (.member hm (.self _))
    (.of_subset fun f hf => ?_)
  exact List.mem_flatMap.2 ⟨_, List.mem_map.2 ⟨_, hm, rfl⟩, hf⟩

/-! ### Objects -/

/-- As `Traces`, of the extensions of an object. -/
def TracesBlock (o : Options) (j : Json) : Prop :=
  ∀ path chain e r, e ∈ (readBlock o chain path j).1 → e.2.Holds r →
    Origin o j (readBlock o chain path j).2 r

theorem origin_field {t : ObjectType} {members : List (String × Json)}
    (ih : ∀ m ∈ members, Traces o m.2) {path : Path} {outer : Record} {f : String × Value}
    (hregular : t.isRegular = true)
    (hread : readRecord o t path (.object members) =
      (some outer, memberFindings o t path members))
    (haccounts : Accounts o t path members outer (memberFindings o t path members))
    (hf : f ∈ outer.fields) (hr : f.2.Holds r) :
    Origin o (.object members) (memberFindings o t path members) r := by
  obtain ⟨hsep, hproperties⟩ := t.isRegular_iff.1 hregular
  have hget : Table.get? outer.fields f.1 = some f.2 := by
    apply Table.get?_of_mem
    · rw [haccounts.names]
      exact hsep.fields
    · exact hf
  have hname : f.1 ∈ t.properties.map (·.field) ++ t.derived := by
    rw [← haccounts.names]
    exact List.mem_map_of_mem hf
  rcases List.mem_append.1 hname with hproperty | hderived
  · obtain ⟨p, hp, hfield⟩ := List.mem_map.1 hproperty
    obtain ⟨hshape, hbare⟩ := hproperties p hp
    have hinitial (h : Table.get? outer.fields p.field = some p.initial) :
        Origin o (.object members) (memberFindings o t path members) r := by
      have heq : f.2 = p.initial := by
        rw [hfield, hget] at h
        exact Option.some.inj h
      have hholds : p.initial.Holds r := heq ▸ hr
      obtain ⟨hextras, hunknown⟩ := hholds.bare hbare
      exact .declared (.self _) hread haccounts hp h hholds hextras hunknown
    cases hj : Table.get? members p.key with
    | none => exact hinitial (haccounts.absent p hp (Table.get?_eq_none_iff.1 hj))
    | some j =>
        have hmem := Table.mem_of_get? hj
        rcases haccounts.present p hp j hj with ⟨v, hvalue, hset⟩ | ⟨-, hset, -⟩
        · rw [hfield, hget] at hset
          refine (origin_readValue (ih _ hmem) hshape hvalue (Option.some.inj hset ▸ hr)).mono
            (.member hmem (.self _)) (.of_subset fun g hg => ?_)
          apply mem_memberFindings hmem
          rw [readMember_of_property ((ObjectType.property?_eq_some_iff hsep.keys).2 ⟨hp, rfl⟩)]
          exact hg
        · exact hinitial hset
  · have hnull := haccounts.derived f.1 hderived
    rw [hget] at hnull
    rw [Option.some.inj hnull] at hr
    exact absurd hr (Value.not_holds_json _ _)

theorem origin_extension {t : ObjectType} {members : List (String × Json)}
    (ih : ∀ m ∈ members, TracesBlock o m.2) {path : Path} {outer : Record} {e : String × Value}
    (hregular : t.isRegular = true)
    (haccounts : Accounts o t path members outer (memberFindings o t path members))
    (he : e ∈ outer.extensions) (hr : e.2.Holds r) :
    Origin o (.object members) (memberFindings o t path members) r := by
  obtain ⟨hsep, -⟩ := t.isRegular_iff.1 hregular
  rw [haccounts.extensions] at he
  cases hj : Table.get? members "extensions" with
  | none =>
      rw [hj] at he
      cases he
  | some j =>
      rw [hj] at he
      have hmem := Table.mem_of_get? hj
      refine (ih _ hmem _ _ e r he hr).mono (.member hmem (.self _))
        (.of_subset fun g hg => ?_)
      apply mem_memberFindings hmem
      rw [readMember_of_unlisted (ObjectType.property?_eq_none_iff.2 hsep.extensions)]
      exact hg

theorem origin_object {t : ObjectType} {members : List (String × Json)}
    (ih : ∀ m ∈ members, Traces o m.2) (ihblock : ∀ m ∈ members, TracesBlock o m.2)
    (hkeys : (members.map (·.1)).Nodup) {path : Path} {v : Value} (hregular : t.isRegular = true)
    (hv : (readForm o path (.object t) (.object members)).value = some v) (hr : v.Holds r) :
    Origin o (.object members) (readForm o path (.object t) (.object members)).findings r := by
  obtain ⟨hsep, -⟩ := t.isRegular_iff.1 hregular
  have hread := readRecord_object_eq o t path members
  have haccounts : Accounts o t path members _ _ := accounts_foldl hsep hkeys
  rw [readForm_object_eq] at hv ⊢
  cases hv
  cases hr with
  | self => exact .read (.self _) hread haccounts (.of_subset (List.Subset.refl _))
  | field hf hholds => exact origin_field ih hregular hread haccounts hf hholds
  | extension he hholds => exact origin_extension ihblock hregular haccounts he hholds

/-! ### The whole -/

theorem traces (ho : o.Regular) {j : Json} (hj : j.KeysDistinct) :
    Traces o j ∧ TracesBlock o j := by
  refine (inductionOn (fun path form j => j.KeysDistinct → ∀ v r, form.isRegular = true →
    (readForm o path form j).value = some v → v.Holds r →
      Origin o j (readForm o path form j).findings r) (fun path chain j => j.KeysDistinct →
    ∀ e r, e ∈ (readBlock o chain path j).1 → e.2.Holds r →
      Origin o j (readBlock o chain path j).2 r) j ?list ?map ?object ?leaf ?extensions ?none).imp
    (fun h path form => h path form hj) fun h path chain => h path chain hj
  case list =>
    intro path item items ih hj v r hregular hv hr
    refine origin_list (fun j hmem path form => ?_) hregular hv hr
    exact ih j hmem path form (Json.KeysDistinct.array_iff.1 hj j hmem)
  case map =>
    intro path item members ih hj v r hregular hv hr
    refine origin_map (fun m hm path form => ?_) hregular hv hr
    exact ih m hm path form ((Json.KeysDistinct.object_iff.1 hj).2 m hm)
  case object =>
    intro path t members ih hj v r hregular hv hr
    obtain ⟨hkeys, hvalues⟩ := Json.KeysDistinct.object_iff.1 hj
    exact origin_object (fun m hm path form => (ih m hm).1 path form (hvalues m hm))
      (fun m hm path chain => (ih m hm).2 path chain (hvalues m hm)) hkeys hregular hv hr
  case leaf =>
    intro path form j hopens _ v r _ hv hr
    exact absurd hr (not_holds_of_not_opens hopens hv)
  case extensions =>
    intro path chain members ih hj e r he hr
    refine origin_readBlock (fun m hm path form => ?_) ho he hr
    exact ih m hm path form ((Json.KeysDistinct.object_iff.1 hj).2 m hm)
  case none =>
    intro path chain j hobject _ e r he
    rw [readBlock_of_ne_object o path hobject] at he
    cases he

end

/-- An object with distinct keys is read as a record that accounts for its members, and so is every
object that a record inside comes from: the members that are neither properties nor extensions nor
extras are kept in their order, or none of them if they are not captured, extras are kept as they
are, and each property that is there is read or found at fault. -/
theorem accounts_of_readRecord {o : Options} (ho : o.Regular) {t : ObjectType}
    (ht : t ∈ Schema.allTypes) (path : Path) {members : List (String × Json)}
    (hmembers : (Json.object members).KeysDistinct) :
    ∃ r findings, readRecord o t path (.object members) = (some r, findings) ∧
      Accounts o t path members r findings ∧
      ∀ r', (Value.record r).Holds r' → Origin o (.object members) findings r' := by
  have hregular := Schema.isRegular_of_mem t ht
  obtain ⟨hsep, -⟩ := t.isRegular_iff.1 hregular
  obtain ⟨hkeys, -⟩ := Json.KeysDistinct.object_iff.1 hmembers
  have hform := readForm_object_eq o t path members
  refine ⟨_, _, readRecord_object_eq o t path members, accounts_foldl hsep hkeys,
    fun r' hr' => ?_⟩
  have horigin := (traces ho hmembers).1 path (.object t) _ r' hregular (by rw [hform]) hr'
  rwa [hform] at horigin

/-- Keys of no property in the document, in its asset and in an extension that is read as a record;
some are called as fields are. -/
theorem accounts_of_readRecord_root :
    let members : List (String × Json) :=
      [("asset", .object [("version", .string "2.0"), ("min_version", .null)]),
        ("unknown_properties", .string "a"), ("extras", .object [("extensions", .null)]),
        ("extensions", .object [("CESIUM_RTC", .object [("data", .array []), ("extras", .null)])])]
    Options.Regular {} ∧ Schema.root ∈ Schema.allTypes ∧ (Json.object members).KeysDistinct ∧
      ∃ r findings, readRecord {} Schema.root ⟨"", []⟩ (.object members) = (some r, findings) ∧
        Accounts {} Schema.root ⟨"", []⟩ members r findings ∧
        ∀ r', (Value.record r).Holds r' → Origin {} (.object members) findings r' := by
  intro members
  have hroot : Schema.root ∈ Schema.allTypes := by
    simp [Schema.allTypes, Schema.coreTypes]
  have hmembers : (Json.object members).KeysDistinct := by
    simp [members]
  exact ⟨Options.regular_default, hroot, hmembers,
    accounts_of_readRecord Options.regular_default hroot ⟨"", []⟩ hmembers⟩

end Reading

end Gltf
