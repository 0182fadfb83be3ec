import Gltf.Proofs.Reading.Members
import Gltf.Proofs.Schema.Plain
import Mathlib

/-!
Reading one value twice, with options that differ in what a pruning leaves out. A pruning takes the
extensions of some names, or the unknown members, out of every record at every depth. What is read
is the same but for what is pruned; what is found is the same, or at least not reordered.
-/

namespace Gltf

/-- What is left out of the records inside a value. -/
structure Pruning where
  extension : String → Bool := fun _ => false
  unknown : Bool := false

namespace Pruning

def ofExtension (name : String) : Pruning := { extension := (· == name) }

def ofUnknown : Pruning := { unknown := true }

end Pruning

mutual

def Value.pruned (p : Pruning) : Value → Value
  | .json j => .json j
  | .list items => .list (prunedItems p items)
  | .map entries => .map (prunedEntries p entries)
  | .record r => .record (r.pruned p)
  | .bytes bs => .bytes bs
termination_by structural v => v

def Record.pruned (p : Pruning) : Record → Record
  | .mk lineage fields extensions extras unknown =>
      .mk lineage (prunedEntries p fields)
        ((prunedEntries p extensions).filter fun e => !p.extension e.1) extras
        (if p.unknown then [] else unknown)
termination_by structural r => r

def prunedItems (p : Pruning) : List Value → List Value
  | [] => []
  | v :: items => v.pruned p :: prunedItems p items
termination_by structural items => items

def prunedEntries (p : Pruning) : List (String × Value) → List (String × Value)
  | [] => []
  | (key, v) :: entries => (key, v.pruned p) :: prunedEntries p entries
termination_by structural entries => entries

end

section
variable (p : Pruning)

theorem prunedItems_eq_map (items : List Value) : prunedItems p items = items.map (·.pruned p) := by
  induction items with
  | nil => rfl
  | cons v items ih => rw [prunedItems, ih, List.map_cons]

theorem prunedEntries_eq_map (entries : List (String × Value)) :
    prunedEntries p entries = entries.map fun e => (e.1, e.2.pruned p) := by
  induction entries with
  | nil => rfl
  | cons e entries ih =>
      obtain ⟨key, v⟩ := e
      rw [prunedEntries, ih, List.map_cons]

theorem prunedEntries_put (entries : Table String Value) (key : String) (v : Value) :
    prunedEntries p (Table.put entries key v) =
      Table.put (prunedEntries p entries) key (v.pruned p) := by
  induction entries with
  | nil => rfl
  | cons e entries ih =>
      obtain ⟨key', v'⟩ := e
      rw [Table.put, prunedEntries, Table.put]
      split_ifs
      · rfl
      · rw [prunedEntries, ih]

/-- The extensions of a record, pruned. -/
def prunedExtensions (entries : Table String Value) : Table String Value :=
  (prunedEntries p entries).filter fun e => !p.extension e.1

end

namespace Reading

def Part.pruned (p : Pruning) : Part → Part
  | .field name value => .field name (value.map (·.pruned p))
  | .extensions entries => .extensions (prunedExtensions p entries)
  | .extras value => .extras value
  | .unknown key value => if p.unknown then .dropped else .unknown key value
  | .dropped => .dropped

section
variable (p : Pruning)

theorem pruned_addPart (r : Record) (part : Part) :
    (addPart r part).pruned p = addPart (r.pruned p) (part.pruned p) := by
  obtain ⟨lineage, fields, extensions, extras, unknown⟩ := r
  cases part with
  | field name value =>
      cases value with
      | none => rfl
      | some v =>
          have hput := prunedEntries_put p fields name v
          simp only [addPart, Record.setField, Record.fields, Record.pruned, Part.pruned,
            Option.map_some, hput, Record.lineage, Record.extensions, Record.extras, Record.unknown]
  | extensions entries => rfl
  | extras value => rfl
  | unknown key value =>
      rw [Part.pruned]
      split_ifs with hunknown
      · simp [addPart, Record.pruned, hunknown, Record.lineage, Record.fields, Record.extensions,
          Record.extras]
      · simp [addPart, Record.pruned, hunknown, Record.lineage, Record.fields, Record.extensions,
          Record.extras, Record.unknown]
  | dropped => rfl

theorem pruned_foldl_addPart (r : Record) (parts : List Part) :
    (parts.foldl addPart r).pruned p = (parts.map (·.pruned p)).foldl addPart (r.pruned p) := by
  induction parts generalizing r with
  | nil => rfl
  | cons part parts ih => rw [List.foldl_cons, ih, pruned_addPart, List.map_cons, List.foldl_cons]

end

/-! ### Findings -/

/-- The first findings are among the second, in their order; if `exact`, there are no others. -/
structure Fewer (exact : Bool) (fewer more : List Finding) : Prop where
  sublist : fewer.Sublist more
  eq : exact = true → fewer = more

namespace Fewer

variable {exact : Bool} {fewer more fewer' more' : List Finding}

theorem refl (exact : Bool) (findings : List Finding) : Fewer exact findings findings :=
  ⟨.refl findings, fun _ => rfl⟩

theorem append (h : Fewer exact fewer more) (h' : Fewer exact fewer' more') :
    Fewer exact (fewer ++ fewer') (more ++ more') :=
  ⟨h.sublist.append h'.sublist, fun hexact => by rw [h.eq hexact, h'.eq hexact]⟩

theorem map (h : Fewer exact fewer more) (f : Finding → Finding) :
    Fewer exact (fewer.map f) (more.map f) :=
  ⟨h.sublist.map f, fun hexact => by rw [h.eq hexact]⟩

theorem flatMap {α : Type} {f g : α → List Finding} {l : List α}
    (h : ∀ a ∈ l, Fewer exact (f a) (g a)) : Fewer exact (l.flatMap f) (l.flatMap g) := by
  induction l with
  | nil => exact refl exact []
  | cons a l ih =>
      rw [List.flatMap_cons, List.flatMap_cons]
      exact (h a List.mem_cons_self).append (ih fun b hb => h b (List.mem_cons_of_mem _ hb))

end Fewer

/-! ### Two readings of one value -/

/-- Two outcomes are the same but for what is pruned. -/
structure Outcome.Agrees (p : Pruning) (exact : Bool) (a b : Outcome) : Prop where
  value : a.value.map (·.pruned p) = b.value.map (·.pruned p)
  findings : Fewer exact a.findings b.findings

section
variable {p : Pruning} {exact : Bool} {o o' : Options}

theorem Outcome.Agrees.refl (a : Outcome) : a.Agrees p exact a := ⟨rfl, .refl exact _⟩

/-- Two readings of a value in a form. A choice looks at what is found, so there are none in the
form unless that is the same. -/
def FormAgrees (p : Pruning) (exact : Bool) (o o' : Options) (path : Path) (form : Form)
    (j : Json) : Prop :=
  exact = true ∨ form.isPlain = true →
    (readForm o path form j).Agrees p exact (readForm o' path form j)

theorem agrees_findSome? {forms : List Form} {f g : Form → Outcome}
    (h : ∀ form ∈ forms, (f form).Agrees p true (g form)) :
    (forms.findSome? fun form => (f form).clean?).map (·.pruned p) =
      (forms.findSome? fun form => (g form).clean?).map (·.pruned p) := by
  induction forms with
  | nil => rfl
  | cons form forms ih =>
      have hform := h form List.mem_cons_self
      have hclean : (f form).clean?.map (·.pruned p) = (g form).clean?.map (·.pruned p) := by
        rw [Outcome.clean?, Outcome.clean?, hform.findings.eq rfl]
        split_ifs
        · exact hform.value
        · rfl
      have ih' := ih fun form hmem => h form (List.mem_cons_of_mem _ hmem)
      simp only [List.findSome?_cons]
      cases hf : (f form).clean? with
      | some v =>
          cases hg : (g form).clean? with
          | some w => simpa [hf, hg] using hclean
          | none => simp [hf, hg] at hclean
      | none =>
          cases hg : (g form).clean? with
          | some w => simp [hf, hg] at hclean
          | none => exact ih'

/-- A shape agrees as the forms in it do. -/
theorem agrees_readValue {path : Path} {shape : Shape} {j : Json}
    (ih : ∀ path form, FormAgrees p exact o o' path form j)
    (hshape : exact = true ∨ shape.isPlain = true) :
    (readValue o path shape j).Agrees p exact (readValue o' path shape j) := by
  by_cases hj : j = .null
  · subst hj
    cases shape with
    | required form => exact ih path form hshape
    | optional form => exact .refl _
    | choice forms text listsNull => exact .refl _
  · cases shape with
    | required form => exact ih path form hshape
    | optional form =>
        rw [readValue_optional_of_ne o path hj, readValue_optional_of_ne o' path hj]
        exact ih path form hshape
    | choice forms text listsNull =>
        -- The first form without findings is taken, so it is the same one in both readings.
        have hexact : exact = true := hshape.resolve_right (by simp [Shape.isPlain])
        subst hexact
        have hfound :
            (forms.findSome? fun form => (readForm o path form j).clean?).map (·.pruned p) =
              (forms.findSome? fun form => (readForm o' path form j).clean?).map (·.pruned p) :=
          agrees_findSome? fun form _ => ih path form (.inl rfl)
        rw [readValue_choice_of_ne o path hj, readValue_choice_of_ne o' path hj]
        cases hf : forms.findSome? fun form => (readForm o path form j).clean? with
        | some v =>
            cases hg : forms.findSome? fun form => (readForm o' path form j).clean? with
            | some w =>
                rw [hf, hg] at hfound
                exact ⟨hfound, .refl true []⟩
            | none => simp [hf, hg] at hfound
        | none =>
            cases hg : forms.findSome? fun form => (readForm o' path form j).clean? with
            | some w => simp [hf, hg] at hfound
            | none => exact .refl _

/-! ### Lists and maps -/

theorem agrees_assembleList {α : Type} {f g : α → Outcome} {l : List α}
    (h : ∀ a ∈ l, (f a).Agrees p exact (g a)) :
    (assembleList (l.map f)).Agrees p exact (assembleList (l.map g)) := by
  constructor
  · simp only [assembleList, Option.map_some, Value.pruned, prunedItems_eq_map, List.filterMap_map,
      List.map_filterMap]
    congr 2
    exact List.filterMap_congr fun a ha => (h a ha).value
  · simp only [assembleList, List.flatMap_map]
    exact .flatMap fun a ha => (h a ha).findings

theorem prunedEntries_presentEntries (f : String × Json → Outcome) (l : List (String × Json)) :
    prunedEntries p (presentEntries (l.map fun m => (m.1, f m))) =
      l.filterMap fun m => ((f m).value.map (·.pruned p)).map (m.1, ·) := by
  simp only [presentEntries, prunedEntries_eq_map, List.filterMap_map, List.map_filterMap,
    Option.map_map, Function.comp_def]

theorem agrees_assembleMap {f g : String × Json → Outcome} {l : List (String × Json)}
    (h : ∀ m ∈ l, (f m).Agrees p exact (g m)) :
    (assembleMap (l.map fun m => (m.1, f m))).Agrees p exact
      (assembleMap (l.map fun m => (m.1, g m))) := by
  constructor
  · simp only [assembleMap, Option.map_some, Value.pruned, prunedEntries_presentEntries]
    congr 2
    refine List.filterMap_congr fun m hm => ?_
    rw [(h m hm).value]
  · simp only [assembleMap, List.flatMap_map]
    exact .flatMap fun m hm => (h m hm).findings

/-! ### Extensions -/

theorem agrees_extensionOutcome {name : String} {raw : Json} {a b : Outcome}
    (h : a.Agrees p exact b) :
    (extensionOutcome name raw a).Agrees p exact (extensionOutcome name raw b) := by
  refine ⟨?_, h.findings.map _⟩
  have hvalue := h.value
  cases ha : a.value <;> cases hb : b.value <;> simp_all [extensionOutcome]

/-- Two options that treat alike what is not pruned. In what is pruned the first find nothing, and
neither do the second if `exact`. -/
structure Alike (p : Pruning) (exact : Bool) (o o' : Options) : Prop where
  unknown : p.unknown = true ∨ o.captureUnknown = o'.captureUnknown
  resolve : ∀ chain name, p.extension name = false → o.resolve chain name = o'.resolve chain name
  handler? : ∀ chain name, p.extension name = false → o.handler? chain name = o'.handler? chain name
  silent : ∀ chain name, p.extension name = true → o.handler? chain name = none
  silent' : exact = true → ∀ chain name, p.extension name = true → o'.handler? chain name = none
  plain : exact = true ∨ ∀ chain name t, o.handler? chain name = some (.record t) →
    t.isPlain = true

theorem findings_of_unhandled {chain : List String} {path : Path} {name : String} {j : Json}
    (h : o.handler? chain name = none) : (readExtension o chain path name j).findings = [] := by
  rw [readExtension, h]
  split_ifs <;> rfl

theorem agrees_readExtension (ho : Alike p exact o o') {chain : List String} {path : Path}
    {name : String} {j : Json} (hname : p.extension name = false)
    (ih : ∀ path form, FormAgrees p exact o o' path form j) :
    (readExtension o chain path name j).Agrees p exact (readExtension o' chain path name j) := by
  rw [readExtension, readExtension, ← ho.resolve chain name hname, ← ho.handler? chain name hname]
  split_ifs
  · exact .refl _
  · cases hhandler : o.handler? chain name with
    | none => exact .refl _
    | some handler =>
        cases handler with
        | record t =>
            have hplain := ho.plain.imp_right fun h => h chain name t hhandler
            exact agrees_extensionOutcome (ih (path.key name) (.object t) hplain)
        | function function read => exact .refl _

theorem fewer_readExtension (ho : Alike p exact o o') {chain : List String} {path : Path}
    {name : String} {j : Json}
    (ih : ∀ path form, FormAgrees p exact o o' path form j) :
    Fewer exact (readExtension o chain path name j).findings
      (readExtension o' chain path name j).findings := by
  cases hname : p.extension name with
  | false => exact (agrees_readExtension ho hname ih).findings
  | true =>
      rw [findings_of_unhandled (ho.silent chain name hname)]
      refine ⟨List.nil_sublist _, fun hexact => ?_⟩
      rw [findings_of_unhandled (ho.silent' hexact chain name hname)]

/-- Two readings of the extensions of an object. -/
structure BlockAgrees (p : Pruning) (exact : Bool) (a b : Table String Value × List Finding) :
    Prop where
  entries : prunedExtensions p a.1 = prunedExtensions p b.1
  findings : Fewer exact a.2 b.2

theorem agrees_readBlock (ho : Alike p exact o o') {chain : List String} {path : Path}
    {entries : List (String × Json)}
    (ih : ∀ e ∈ entries, ∀ path form, FormAgrees p exact o o' path form e.2) :
    BlockAgrees p exact (readBlock o chain path (.object entries))
      (readBlock o' chain path (.object entries)) := by
  constructor
  · simp only [readBlock, prunedExtensions, prunedEntries_presentEntries
      (fun e => readExtension o chain path e.1 e.2), prunedEntries_presentEntries
      (fun e => readExtension o' chain path e.1 e.2), List.filter_filterMap]
    refine List.filterMap_congr fun e he => ?_
    cases hname : p.extension e.1 with
    | false => rw [(agrees_readExtension ho hname (ih e he)).value]
    | true =>
        cases (readExtension o chain path e.1 e.2).value <;>
          cases (readExtension o' chain path e.1 e.2).value <;> simp [Option.filter, hname]
  · simp only [readBlock, List.flatMap_map]
    exact .flatMap fun e he => fewer_readExtension ho (ih e he)

/-! ### Objects -/

/-- Two readings of a member of an object. -/
structure MemberAgrees (p : Pruning) (exact : Bool) (a b : Part × List Finding) : Prop where
  part : a.1.pruned p = b.1.pruned p
  findings : Fewer exact a.2 b.2

theorem agrees_readMember (ho : Alike p exact o o') {t : ObjectType} {path : Path} {key : String}
    {j : Json}
    (hvalue : ∀ property, t.property? key = some property → ∀ path,
      (readValue o path property.shape j).Agrees p exact (readValue o' path property.shape j))
    (hblock : ∀ path, BlockAgrees p exact (readBlock o t.lineage.chain path j)
      (readBlock o' t.lineage.chain path j)) :
    MemberAgrees p exact (readMember o t path key j) (readMember o' t path key j) := by
  cases hproperty : t.property? key with
  | some property =>
      rw [readMember_of_property hproperty, readMember_of_property hproperty]
      have h := hvalue property hproperty (path.key key)
      exact ⟨by simp only [Part.pruned, h.value], h.findings⟩
  | none =>
      rw [readMember_of_unlisted hproperty, readMember_of_unlisted hproperty, readOther, readOther]
      by_cases hextensions : key = "extensions"
      · rw [if_pos hextensions, if_pos hextensions]
        have h := hblock (path.key key)
        exact ⟨by simp only [Part.pruned, h.entries], h.findings⟩
      · rw [if_neg hextensions, if_neg hextensions]
        by_cases hextras : key = "extras"
        · rw [if_pos hextras, if_pos hextras]
          exact ⟨rfl, .refl _ _⟩
        · rw [if_neg hextras, if_neg hextras]
          rcases ho.unknown with hunknown | hcapture
          · cases o.captureUnknown <;> cases o'.captureUnknown <;>
              exact ⟨by simp [Part.pruned, hunknown], .refl _ _⟩
          · rw [hcapture]
            exact ⟨rfl, .refl _ _⟩

theorem agrees_object {t : ObjectType} {path : Path} {members : List (String × Json)}
    (h : ∀ m ∈ members, MemberAgrees p exact (readMember o t path m.1 m.2)
      (readMember o' t path m.1 m.2)) :
    (readForm o path (.object t) (.object members)).Agrees p exact
      (readForm o' path (.object t) (.object members)) := by
  rw [readForm_object_eq, readForm_object_eq]
  constructor
  · simp only [Option.map_some, Value.pruned, pruned_foldl_addPart, memberParts, List.map_map]
    congr 3
    exact List.map_congr_left fun m hm => (h m hm).part
  · exact .append (.flatMap fun m hm => (h m hm).findings) (.refl exact _)

/-! ### The whole -/

theorem agrees_readForm (ho : Alike p exact o o') (j : Json) :
    (∀ path form, FormAgrees p exact o o' path form j) ∧ ∀ path chain,
      BlockAgrees p exact (readBlock o chain path j) (readBlock o' chain path j) := by
  refine inductionOn (FormAgrees p exact o o') (fun path chain j => BlockAgrees p exact
    (readBlock o chain path j) (readBlock o' chain path j)) j ?list ?map ?object ?leaf ?extensions
    ?none
  case list =>
    intro path item items ih hitem
    rw [readForm_array_list, readForm_array_list, List.mapIdx_eq_zipIdx_map,
      List.mapIdx_eq_zipIdx_map]
    exact agrees_assembleList fun e he =>
      agrees_readValue (ih e.1 (List.fst_mem_of_mem_zipIdx he)) hitem
  case map =>
    intro path item members ih hitem
    rw [readForm_object_map, readForm_object_map]
    exact agrees_assembleMap fun m hm => agrees_readValue (ih m hm) hitem
  case object =>
    intro path t members ih ht
    refine agrees_object fun m hm => agrees_readMember ho (fun property hproperty path => ?_)
      fun path => (ih m hm).2 path _
    have hshape : exact = true ∨ property.shape.isPlain = true := ht.imp_right fun h =>
      (t.isPlain_iff.1 h property (List.mem_of_find?_eq_some hproperty)).1
    exact agrees_readValue (ih m hm).1 hshape
  case leaf =>
    intro path form j hopens _
    rw [readForm_of_not_opens o path hopens, readForm_of_not_opens o' path hopens]
    exact .refl _
  case extensions => exact fun path chain members ih => agrees_readBlock ho ih
  case none =>
    intro path chain j hobject
    rw [readBlock_of_ne_object o path hobject, readBlock_of_ne_object o' path hobject]
    exact ⟨rfl, .refl _ _⟩

theorem record?_pruned (v : Value) : (v.pruned p).record? = v.record?.map (·.pruned p) := by
  cases v <;> rfl

/-- Two options that treat alike what is not pruned read the same, but for what is. -/
theorem agrees_readRecord (ho : Alike p exact o o') {t : ObjectType}
    (ht : exact = true ∨ t.isPlain = true) (path : Path) (raw : Json) :
    (readRecord o t path raw).1.map (·.pruned p) = (readRecord o' t path raw).1.map (·.pruned p) ∧
      Fewer exact (readRecord o t path raw).2 (readRecord o' t path raw).2 := by
  have h := (agrees_readForm ho raw).1 path (.object t) ht
  have hrecord (out : Outcome) : (out.value.bind Value.record?).map (·.pruned p) =
      (out.value.map (·.pruned p)).bind Value.record? := by
    cases hvalue : out.value with
    | none => rfl
    | some v => exact (record?_pruned v).symm
  refine ⟨?_, h.findings⟩
  rw [readRecord, readRecord, hrecord, hrecord, h.value]

end

/-! ### Unknown members -/

theorem alike_captureUnknown (o : Options) (capture : Bool) :
    Alike .ofUnknown true { o with captureUnknown := capture } o where
  unknown := .inl rfl
  resolve _ _ _ := rfl
  handler? _ _ _ := rfl
  silent _ _ h := nomatch h
  silent' _ _ _ h := nomatch h
  plain := .inl rfl

/-- Whether unknown members are kept has no influence on reading: what is found is the same, and so
is what is read, once the unknown members are taken out of every record in it, at every depth. -/
theorem readRecord_captureUnknown (o : Options) (capture : Bool) (t : ObjectType) (path : Path)
    (raw : Json) :
    (readRecord { o with captureUnknown := capture } t path raw).2 = (readRecord o t path raw).2 ∧
      (readRecord { o with captureUnknown := capture } t path raw).1.map (·.pruned .ofUnknown) =
        (readRecord o t path raw).1.map (·.pruned .ofUnknown) := by
  obtain ⟨hvalue, hfindings⟩ :=
    agrees_readRecord (alike_captureUnknown o capture) (t := t) (.inl rfl) path raw
  exact ⟨hfindings.eq rfl, hvalue⟩

end Reading

end Gltf
