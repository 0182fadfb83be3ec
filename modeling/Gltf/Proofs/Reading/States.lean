import Gltf.Proofs.Reading.Origin
import Gltf.Proofs.Reading.Pruning
import Mathlib

/-!
The state of one extension, set for all kinds of objects. It has no influence on anything but the
entries of that extension and what is found in them: disabled, the extension is nowhere; captured,
it is what stands in the document, with the same findings; and typed, there may be more findings,
between those that there are in any case.
-/

namespace Gltf

/-- A fresh value only holds records without extensions and unknown members. -/
theorem Value.Holds.fresh {v : Value} {r : Record} (h : v.Holds r) (hfresh : v.isFresh = true) :
    r.extensions = [] ∧ r.unknown = [] := by
  induction h with
  | self r =>
      obtain ⟨hextensions, hunknown, -⟩ := r.isFresh_iff.1 hfresh
      exact ⟨hextensions, hunknown⟩
  | item hv h ih => exact ih ((itemsAreFresh_iff _).1 hfresh _ hv)
  | entry he h ih => exact ih ((entriesAreFresh_iff _).1 hfresh _ he)
  | @field outer f r hf h ih =>
      obtain ⟨-, -, hfields⟩ := outer.isFresh_iff.1 hfresh
      exact ih (hfields _ hf)
  | @extension outer e r he h ih =>
      obtain ⟨hextensions, -, -⟩ := outer.isFresh_iff.1 hfresh
      rw [hextensions] at he
      cases he

namespace Options

/-- The options with a state for the extensions of a name on all kinds of objects, or with none. -/
def withState (o : Options) (name : String) : Option ExtensionState → Options
  | some s => o.setState name s none
  | none => o.clearState name none

section
variable {o : Options} {name : String} {s : Option ExtensionState}

theorem registry_withState : (o.withState name s).registry = o.registry := by
  cases s <;> rfl

theorem captureUnknown_withState : (o.withState name s).captureUnknown = o.captureUnknown := by
  cases s <;> rfl

theorem lookup_withState (chain : List String) (other : String) :
    (o.withState name s).lookup chain other = o.lookup chain other := by
  rw [lookup, lookup, registry_withState]

theorem state?_withState (other : String) (parent : Option String) :
    (o.withState name s).state? other parent =
      if (none, name) = (parent, other) then s else o.state? other parent := by
  cases s with
  | none => exact Table.get?_erase o.states _ _
  | some s => exact Table.get?_put o.states _ _ _

theorem resolve_withState_of_ne {other : String} (h : other ≠ name) (chain : List String) :
    (o.withState name s).resolve chain other = o.resolve chain other := by
  have hstate (parent : Option String) :
      (o.withState name s).state? other parent = o.state? other parent := by
    rw [state?_withState, if_neg]
    rintro ⟨⟩
    exact h rfl
  simp only [resolve, hstate, lookup_withState]

theorem handler?_withState_of_ne {other : String} (h : other ≠ name) (chain : List String) :
    (o.withState name s).handler? chain other = o.handler? chain other := by
  rw [handler?, handler?, resolve_withState_of_ne h, lookup_withState]

theorem resolve_withState_self (hscoped : ∀ kind, o.state? name (some kind) = none)
    (chain : List String) (s : ExtensionState) :
    (o.withState name (some s)).resolve chain name = s := by
  have hkind (kind : String) : (o.withState name (some s)).state? name (some kind) = none := by
    rw [state?_withState, if_neg (by simp), hscoped]
  have hnone : (chain.findSome? fun kind => (o.withState name (some s)).state? name (some kind)) =
      none := by
    simp [hkind]
  rw [resolve, hnone, state?_withState, if_pos rfl]

theorem handler?_withState_self (hscoped : ∀ kind, o.state? name (some kind) = none)
    (chain : List String) {s : ExtensionState} (hs : s ≠ .typed) :
    (o.withState name (some s)).handler? chain name = none := by
  rw [handler?, resolve_withState_self hscoped, if_neg hs]

theorem BuiltIn.withState (ho : o.BuiltIn) : (o.withState name s).BuiltIn := by
  rw [BuiltIn, registry_withState]
  exact ho

end

end Options

namespace Reading

/-! ### Two states -/

section
variable {o : Options} {name : String}

theorem alike_withState (ho : o.BuiltIn) (hscoped : ∀ kind, o.state? name (some kind) = none)
    {exact : Bool} {s : Option ExtensionState}
    (hs : exact = true → ∃ s', s = some s' ∧ s' ≠ .typed) :
    Alike (.ofExtension name) exact (o.withState name (some .disabled)) (o.withState name s) where
  unknown := .inr (by rw [Options.captureUnknown_withState, Options.captureUnknown_withState])
  resolve chain other h := by
    have hne : other ≠ name := by simpa [Pruning.ofExtension] using h
    rw [Options.resolve_withState_of_ne hne, Options.resolve_withState_of_ne hne]
  handler? chain other h := by
    have hne : other ≠ name := by simpa [Pruning.ofExtension] using h
    rw [Options.handler?_withState_of_ne hne, Options.handler?_withState_of_ne hne]
  silent chain other h := by
    obtain rfl : other = name := by simpa [Pruning.ofExtension] using h
    exact Options.handler?_withState_self hscoped chain (by decide)
  silent' hexact chain other h := by
    obtain rfl : other = name := by simpa [Pruning.ofExtension] using h
    obtain ⟨s', rfl, hs'⟩ := hs hexact
    exact Options.handler?_withState_self hscoped chain hs'
  plain := .inr fun chain other t h => Schema.isPlain_of_mem t (ho.withState.of_handler? h)

end

/-! ### Records with the extension -/

/-- How the records in what is read from a JSON value hold the extensions of a name that no handler
is given: not at all or, if captured, as they stand in the object that the record was read from.
None has got among the unknown members, which are members of that object itself. What reader
functions return is up to them. -/
inductive Leaves (o : Options) (name : String) (captured : Bool) (raw : Json) : Record → Prop
  | fresh {r : Record} (extensions : r.extensions = []) (unknown : r.unknown = []) :
      Leaves o name captured raw r
  | read {t : ObjectType} {path : Path} {members : List (String × Json)} {r : Record}
      {findings : List Finding} (inside : raw.Contains (.object members))
      (read : readRecord o t path (.object members) = (some r, findings))
      (extension : ∀ v, (name, v) ∈ r.extensions → captured = true ∧ ∃ entries j,
        ("extensions", .object entries) ∈ members ∧ (name, j) ∈ entries ∧ v = .json j)
      (unknown : ∀ m ∈ r.unknown, m ∈ members ∧ t.knows m.1 = false) :
      Leaves o name captured raw r
  | returned {key : String × String} {function : String}
      {read : List (String × Json) → Except String Reported} {members : List (String × Json)}
      {reported : Reported} {v : Value} {r : Record}
      (handler : (key, .function function read) ∈ o.registry)
      (inside : raw.Contains (.object members)) (call : read members = .ok reported)
      (value : reported.value = some v) (holds : v.Holds r) : Leaves o name captured raw r

theorem Leaves.mono {o : Options} {name : String} {captured : Bool} {inner raw : Json} {r : Record}
    (h : Leaves o name captured inner r) (hinside : raw.Contains inner) :
    Leaves o name captured raw r := by
  cases h with
  | fresh extensions unknown => exact .fresh extensions unknown
  | read inside read extension unknown => exact .read (hinside.trans inside) read extension unknown
  | returned handler inside call value holds =>
      exact .returned handler (hinside.trans inside) call value holds

/-! ### Members and parts -/

section
variable {o : Options} {t : ObjectType} {path : Path} {members : List (String × Json)}

/-- The extensions of a record are read from a member of that key. -/
theorem exists_of_mem_extensions {e : String × Value}
    (he : e ∈ ((memberParts o t path members).foldl addPart t.blank).extensions) :
    ∃ j, ("extensions", j) ∈ members ∧
      e ∈ (readBlock o t.lineage.chain (path.key "extensions") j).1 := by
  rw [extensions_foldl_addPart] at he
  cases hlast : ((memberParts o t path members).filterMap Part.extensions?).getLast? with
  | none =>
      rw [hlast] at he
      cases he
  | some entries =>
      rw [hlast, Option.getD_some] at he
      obtain ⟨part, hpart, hentries⟩ := List.mem_filterMap.1 (List.mem_of_getLast? hlast)
      obtain ⟨⟨key, j⟩, hm, rfl⟩ := List.mem_map.1 hpart
      cases hproperty : t.property? key with
      | some p =>
          rw [readMember_of_property hproperty] at hentries
          cases hentries
      | none =>
          rw [readMember_of_unlisted hproperty, readOther] at hentries
          split_ifs at hentries with hkey
          · subst hkey
            cases hentries
            exact ⟨j, hm, he⟩
          all_goals cases hentries

/-- A field holds what is read from a member, or what the type declares. -/
theorem mem_fields_cases {f : String × Value}
    (hf : f ∈ ((memberParts o t path members).foldl addPart t.blank).fields) :
    (∃ m ∈ members, ∃ p ∈ t.properties,
        (readValue o (path.key m.1) p.shape m.2).value = some f.2) ∨
      (∃ p ∈ t.properties, f.2 = p.initial) ∨ f.2 = .null := by
  rw [fields_foldl_addPart] at hf
  rcases Table.mem_putAll hf with hblank | hset
  · simp only [ObjectType.blank, Record.fields, List.mem_append, List.mem_map] at hblank
    rcases hblank with ⟨p, hp, rfl⟩ | ⟨name, -, rfl⟩
    · exact .inr (.inl ⟨p, hp, rfl⟩)
    · exact .inr (.inr rfl)
  · obtain ⟨m, hm, p, hp, -, hvalue⟩ := mem_set?_memberParts.1 hset
    exact .inl ⟨m, hm, p, List.mem_of_find?_eq_some hp, hvalue⟩

theorem mem_unknown {m : String × Json}
    (hm : m ∈ ((memberParts o t path members).foldl addPart t.blank).unknown) :
    m ∈ members ∧ t.knows m.1 = false := by
  rw [unknown_foldl_addPart, filterMap_unknown?_memberParts] at hm
  rcases Table.mem_putAll hm with hblank | hmem
  · cases hblank
  · split_ifs at hmem
    · simpa using hmem
    · cases hmem

end

/-! ### The induction -/

/-- The extensions of a name are given to no handler and, unless captured, are disabled. -/
structure Untyped (o : Options) (name : String) (captured : Bool) : Prop where
  handler? : ∀ chain, o.handler? chain name = none
  resolve : captured = false → ∀ chain, o.resolve chain name = .disabled

section
variable {o : Options} {name : String} {captured : Bool}

theorem extension_of_untyped (hname : Untyped o name captured) {chain : List String} {path : Path}
    {j : Json} {v : Value} (h : (readExtension o chain path name j).value = some v) :
    captured = true ∧ v = .json j := by
  rw [readExtension, hname.handler? chain] at h
  split_ifs at h with hdisabled
  cases h
  refine ⟨?_, rfl⟩
  by_contra hcaptured
  exact hdisabled (hname.resolve (by simpa using hcaptured) chain)

theorem leaves_self (hname : Untyped o name captured) (t : ObjectType) (path : Path)
    (members : List (String × Json)) :
    Leaves o name captured (.object members)
      ((memberParts o t path members).foldl addPart t.blank) := by
  refine .read (.self _) (readRecord_object_eq o t path members) (fun v hv => ?_)
    fun m hm => mem_unknown hm
  obtain ⟨block, hblock, hv⟩ := exists_of_mem_extensions hv
  obtain ⟨entries, j, rfl, hj, hvalue⟩ := exists_of_mem_readBlock hv
  obtain ⟨hcaptured, rfl⟩ := extension_of_untyped hname hvalue
  exact ⟨hcaptured, entries, j, hblock, hj, rfl⟩

/-- Each record in what is read in a plain form of a value leaves the extensions of the name. -/
def FormLeaves (o : Options) (name : String) (captured : Bool) (path : Path) (form : Form)
    (j : Json) : Prop :=
  ∀ v r, form.isPlain = true → (readForm o path form j).value = some v → v.Holds r →
    Leaves o name captured j r

/-- As `FormLeaves`, of the extensions of an object. -/
def BlockLeaves (o : Options) (name : String) (captured : Bool) (path : Path) (chain : List String)
    (j : Json) : Prop :=
  ∀ e r, e ∈ (readBlock o chain path j).1 → e.2.Holds r → Leaves o name captured j r

theorem leaves_readValue {j : Json} {r : Record}
    (ih : ∀ path form, FormLeaves o name captured path form j)
    {path : Path} {shape : Shape} {v : Value} (hshape : shape.isPlain = true)
    (hv : (readValue o path shape j).value = some v) (hr : v.Holds r) :
    Leaves o name captured j r := by
  cases shape with
  | required form => exact ih path form v r hshape hv hr
  | optional form =>
      by_cases hj : j = .null
      · subst hj
        cases hv
        exact absurd hr (Value.not_holds_json _ _)
      · rw [readValue_optional_of_ne o path hj] at hv
        exact ih path form v r hshape hv hr
  | choice forms text listsNull => cases hshape

theorem leaves_readBlock (ho : o.BuiltIn) {chain : List String} {path : Path}
    {entries : List (String × Json)} {e : String × Value} {r : Record}
    (ih : ∀ m ∈ entries, ∀ path form, FormLeaves o name captured path form m.2)
    (he : e ∈ (readBlock o chain path (.object entries)).1) (hr : e.2.Holds r) :
    Leaves o name captured (.object entries) r := by
  obtain ⟨_, j, heq, hj, hvalue⟩ := exists_of_mem_readBlock he
  cases heq
  have hinside : (Json.object entries).Contains j := .member hj (.self j)
  rcases readExtension_eq_some hvalue with hjson | ⟨t, hhandler, hread⟩ |
    ⟨function, read, members, reported, hhandler, rfl, hcall, hreported⟩
  · rw [hjson] at hr
    exact absurd hr (Value.not_holds_json _ _)
  · have hplain : t.isPlain = true := Schema.isPlain_of_mem t (ho.of_handler? hhandler)
    exact (ih _ hj _ (.object t) _ r hplain hread hr).mono hinside
  · obtain ⟨key, hkey⟩ := Options.mem_registry_of_handler? hhandler
    exact .returned hkey hinside hcall hreported hr

theorem leaves_object (hname : Untyped o name captured) {t : ObjectType} {path : Path}
    {members : List (String × Json)} {v : Value} {r : Record}
    (ih : ∀ m ∈ members, (∀ path form, FormLeaves o name captured path form m.2) ∧
      ∀ path chain, BlockLeaves o name captured path chain m.2) (ht : t.isPlain = true)
    (hv : (readForm o path (.object t) (.object members)).value = some v) (hr : v.Holds r) :
    Leaves o name captured (.object members) r := by
  have hproperties := t.isPlain_iff.1 ht
  rw [readForm_object_eq] at hv
  cases hv
  cases hr with
  | self => exact leaves_self hname t path members
  | field hf hholds =>
      rcases mem_fields_cases hf with ⟨m, hm, p, hp, hvalue⟩ | ⟨p, hp, hinitial⟩ | hnull
      · exact (leaves_readValue (ih m hm).1 (hproperties p hp).1 hvalue hholds).mono
          (.member hm (.self _))
      · rw [hinitial] at hholds
        obtain ⟨hextensions, hunknown⟩ := hholds.fresh (hproperties p hp).2
        exact .fresh hextensions hunknown
      · rw [hnull] at hholds
        exact absurd hholds (Value.not_holds_json _ _)
  | extension he hholds =>
      obtain ⟨j, hj, he⟩ := exists_of_mem_extensions he
      exact ((ih _ hj).2 _ _ _ _ he hholds).mono (.member hj (.self j))

theorem leaves_readForm (ho : o.BuiltIn) (hname : Untyped o name captured) (j : Json) :
    (∀ path form, FormLeaves o name captured path form j) ∧
      ∀ path chain, BlockLeaves o name captured path chain j := by
  refine inductionOn (FormLeaves o name captured) (BlockLeaves o name captured) j ?list ?map ?object
    ?leaf ?extensions ?none
  case list =>
    intro path item items ih v r hitem hv hr
    obtain ⟨i, hi, v', hvalue, hholds⟩ := holds_list hv hr
    have hmem : items[i] ∈ items := List.getElem_mem hi
    exact (leaves_readValue (ih _ hmem) hitem hvalue hholds).mono (.item hmem (.self _))
  case map =>
    intro path item members ih v r hitem hv hr
    obtain ⟨m, hm, v', hvalue, hholds⟩ := holds_map hv hr
    exact (leaves_readValue (ih m hm) hitem hvalue hholds).mono (.member hm (.self _))
  case object => exact fun path t members ih v r ht hv hr => leaves_object hname ih ht hv hr
  case leaf =>
    intro path form j hopens v r _ hv hr
    exact absurd hr (not_holds_of_not_opens hopens hv)
  case extensions => exact fun path chain entries ih e r he hr => leaves_readBlock ho ih he hr
  case none =>
    intro path chain j hobject e r he
    rw [readBlock_of_ne_object o path hobject] at he
    cases he

theorem leaves_readRecord (ho : o.BuiltIn) (hname : Untyped o name captured) {t : ObjectType}
    (ht : t.isPlain = true) {path : Path} {raw : Json} {r r' : Record}
    (hr : (readRecord o t path raw).1 = some r) (hr' : (Value.record r).Holds r') :
    Leaves o name captured raw r' := by
  obtain ⟨v, hv, hrecord⟩ := Option.bind_eq_some_iff.1 hr
  obtain rfl : v = .record r := by
    cases v <;> simp_all [Value.record?]
  exact (leaves_readForm ho hname raw).1 path (.object t) _ r' ht hv hr'

theorem untyped_withState (hscoped : ∀ kind, o.state? name (some kind) = none) :
    Untyped (o.withState name (some .disabled)) name false ∧
      Untyped (o.withState name (some .genericCapture)) name true :=
  ⟨⟨fun chain => Options.handler?_withState_self hscoped chain (by decide),
      fun _ chain => Options.resolve_withState_self hscoped chain .disabled⟩,
    ⟨fun chain => Options.handler?_withState_self hscoped chain (by decide),
      fun h => absurd h.symm Bool.false_ne_true⟩⟩

/-- What state is set for an extension on all kinds of objects, if any, only has influence on that
extension: what is read is the same, once the extension is taken out of every record in it.
Disabled, it is in no record; captured, it is what stands in the document, and the findings are
those that there are with it disabled; and with any other state these are found too, in the same
order. -/
theorem readRecord_withState {o : Options} (ho : o.BuiltIn) {name : String}
    (hscoped : ∀ kind, o.state? name (some kind) = none) {t : ObjectType}
    (ht : t ∈ Schema.allTypes) (path : Path) (raw : Json) :
    (∀ s s', (readRecord (o.withState name s) t path raw).1.map (·.pruned (.ofExtension name)) =
        (readRecord (o.withState name s') t path raw).1.map (·.pruned (.ofExtension name))) ∧
      (∀ r r', (readRecord (o.withState name (some .disabled)) t path raw).1 = some r →
        (Value.record r).Holds r' →
          Leaves (o.withState name (some .disabled)) name false raw r') ∧
      (∀ r r', (readRecord (o.withState name (some .genericCapture)) t path raw).1 = some r →
        (Value.record r).Holds r' →
          Leaves (o.withState name (some .genericCapture)) name true raw r') ∧
      (readRecord (o.withState name (some .genericCapture)) t path raw).2 =
        (readRecord (o.withState name (some .disabled)) t path raw).2 ∧
      ∀ s, (readRecord (o.withState name (some .disabled)) t path raw).2.Sublist
        (readRecord (o.withState name s) t path raw).2 := by
  have hplain : t.isPlain = true := Schema.isPlain_of_mem t ht
  have halike (s : Option ExtensionState) : Alike (.ofExtension name) false
      (o.withState name (some .disabled)) (o.withState name s) :=
    alike_withState ho hscoped fun h => absurd h Bool.false_ne_true
  have hexact : Alike (.ofExtension name) true (o.withState name (some .disabled))
      (o.withState name (some .genericCapture)) :=
    alike_withState ho hscoped fun _ => ⟨.genericCapture, rfl, by decide⟩
  have hagrees (s : Option ExtensionState) := agrees_readRecord (halike s) (.inr hplain) path raw
  have hcaptured := agrees_readRecord hexact (t := t) (.inl rfl) path raw
  obtain ⟨hdisabled, hgeneric⟩ := untyped_withState hscoped
  exact ⟨fun s s' => (hagrees s).1.symm.trans (hagrees s').1,
    fun r r' => leaves_readRecord ho.withState hdisabled hplain,
    fun r r' => leaves_readRecord ho.withState hgeneric hplain,
    (hcaptured.2.eq rfl).symm, fun s => (hagrees s).2.sublist⟩

/-- An extension that is no object, on a material beside another one that a function reads. -/
theorem readRecord_withState_unlit :
    let o : Options := { registry := (("Material", "VENDOR_label"),
      .function "read_label" fun _ => .ok ⟨none, [], ["seen"]⟩) :: Registry.default }
    let raw : Json := .object [("materials", .array [.object [("extensions", .object
      [("KHR_materials_unlit", .bool true), ("VENDOR_label", .object [])])]])]
    o.BuiltIn ∧ (∀ kind, o.state? "KHR_materials_unlit" (some kind) = none) ∧
      Schema.root ∈ Schema.allTypes ∧
      ((readRecord (o.withState "KHR_materials_unlit" none) Schema.root ⟨"", []⟩ raw).2.length = 3 ∧
        (readRecord (o.withState "KHR_materials_unlit" (some .disabled)) Schema.root ⟨"", []⟩
          raw).2.length = 2) ∧
      (readRecord (o.withState "KHR_materials_unlit" (some .disabled)) Schema.root ⟨"", []⟩
        raw).2.Sublist
        (readRecord (o.withState "KHR_materials_unlit" none) Schema.root ⟨"", []⟩ raw).2 := by
  intro o raw
  have hroot : Schema.root ∈ Schema.allTypes := by
    simp [Schema.allTypes, Schema.coreTypes]
  have ho : o.BuiltIn := by
    intro key t hmem
    rcases List.mem_cons.1 hmem with heq | hmem
    · cases heq
    · exact Options.builtIn_default key t hmem
  have hscoped (kind : String) : o.state? "KHR_materials_unlit" (some kind) = none := rfl
  refine ⟨ho, hscoped, hroot, ⟨?_, ?_⟩, ?_⟩
  · decide +kernel
  · decide +kernel
  · obtain ⟨-, -, -, -, hsublist⟩ := readRecord_withState ho hscoped hroot ⟨"", []⟩ raw
    exact hsublist none

end

end Reading

end Gltf
