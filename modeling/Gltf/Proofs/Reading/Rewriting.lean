import Gltf.Proofs.Json.Keys
import Gltf.Proofs.Reading.Variants
import Mathlib

/-!
Reading a document that is written in another way. Neither the order of members nor whether integers
are written as floats makes a difference to what is read, nor to what is found, but for the order and
the texts. Along arrays and objects the two documents go side by side; where members change places,
the places in the record that they go to do not.
-/

namespace Gltf.Reading

open Table (Keyed)

section
variable {v : Variation} {o : Options} {j j' : Json}

/-- The same value in two ways to write it, with all that is made of it. -/
structure ReadsAlike (v : Variation) (o : Options) (j j' : Json) : Prop where
  varies : j.Varies v j'
  forms : ∀ path form, (v.reorders = true → form.FieldsDistinct) →
    (readForm o path form j).Varies v (FormVaries v o form) (readForm o path form j')
  block : ∀ path chain,
    v.Pairs (Keyed (ExtensionVaries v o chain)) (readBlock o chain path j).1
        (readBlock o chain path j').1 ∧
      v.Pairs (Finding.Varies v) (readBlock o chain path j).2 (readBlock o chain path j').2

/-! ### Values that are no containers -/

theorem varies_readNumber {n n' : Number} (h : n.Varies v n') (path : Path) (kind : NumberKind) :
    (readNumber kind path (.number n)).Varies v (FormVaries v o (.number kind))
      (readNumber kind path (.number n')) := by
  simp only [readNumber, ← h.coerce?_eq]
  cases n.coerce? kind with
  | some n₀ => exact varies_accept (.same _ _)
  | none => exact varies_refuse path rfl fun hv => by rw [h.eq_of_not_retypes hv]

theorem varies_readIntEnum {n n' : Number} (h : n.Varies v n') (path : Path) (e : IntEnum) :
    (readIntEnum e path (.number n)).Varies v (FormVaries v o (.intEnum e))
      (readIntEnum e path (.number n')) := by
  have hrange : (Outcome.refuse path (.outOfRange n .int32)).Varies v (FormVaries v o (.intEnum e))
      (Outcome.refuse path (.outOfRange n' .int32)) :=
    varies_refuse path rfl fun hv => by rw [h.eq_of_not_retypes hv]
  simp only [readIntEnum, ← h.coerce?_eq]
  split
  · split_ifs
    · exact varies_accept (.same _ _)
    · exact varies_refuse path rfl fun _ => rfl
  · exact hrange

theorem varies_readLeaf (h : j.Varies v j') (path : Path) (form : Form) :
    (readLeaf path form j).Varies v (FormVaries v o form) (readLeaf path form j') := by
  have hkind (wanted : Wanted) : (Outcome.refuse path (.wrongKind wanted j.kind)).Varies v
      (FormVaries v o form) (Outcome.refuse path (.wrongKind wanted j'.kind)) :=
    varies_refuse path rfl fun hv => by rw [h.kind_eq hv]
  cases form with
  | any => exact varies_accept (.verbatim h)
  | bool =>
      cases h with
      | bool b => exact varies_accept (.same _ _)
      | _ => exact hkind .bool
  | string =>
      cases h with
      | string s => exact varies_accept (.same _ _)
      | _ => exact hkind .string
  | number kind =>
      cases h with
      | number h => exact varies_readNumber h path kind
      | _ => exact hkind .number
  | intEnum e =>
      cases h with
      | number h => exact varies_readIntEnum h path e
      | _ => exact hkind .number
  | stringEnum e =>
      cases h with
      | string s =>
          simp only [readLeaf, readStringEnum]
          split_ifs
          · exact varies_accept (.same _ _)
          · exact varies_refuse path rfl fun _ => rfl
      | _ => exact hkind .string
  | list item => exact hkind .array
  | map item => exact hkind .object
  | object t => exact hkind (.objectOf t.name)
  | unreadable text => exact varies_refuse path rfl fun _ => rfl

/-! ### Shapes -/

theorem option_rel_iff {R : Value → Value → Prop} {a b : Option Value} :
    Option.Rel R a b ↔ a = none ∧ b = none ∨ ∃ x y, a = some x ∧ b = some y ∧ R x y := by
  cases a <;> cases b <;> simp

/-- The first form that reads a value cleanly is the same on both sides. -/
theorem rel_findSome? {R : Value → Value → Prop} {forms : List Form} {f g : Form → Option Value}
    (h : ∀ form ∈ forms, Option.Rel R (f form) (g form)) :
    Option.Rel R (forms.findSome? f) (forms.findSome? g) := by
  induction forms with
  | nil => exact .none
  | cons form forms ih =>
      have hhead := h form List.mem_cons_self
      have hrest := ih fun form' hform' => h form' (List.mem_cons_of_mem _ hform')
      rw [List.findSome?_cons, List.findSome?_cons]
      rcases option_rel_iff.1 hhead with ⟨ha, hb⟩ | ⟨a, b, ha, hb, hab⟩
      · rwa [ha, hb]
      · rw [ha, hb]
        exact .some hab

theorem ReadsAlike.readValue (h : ReadsAlike v o j j') {shape : Shape}
    (hfields : v.reorders = true → ∀ form ∈ shape.forms, form.FieldsDistinct) (path : Path) :
    (readValue o path shape j).Varies v (ShapeVaries v o shape) (readValue o path shape j') := by
  have hforms : ∀ form ∈ shape.forms,
      (readForm o path form j).Varies v (ShapeVaries v o shape) (readForm o path form j') :=
    fun form hform =>
      (h.forms path form fun hv => hfields hv form hform).imp fun _ _ => .form hform
  cases shape with
  | required form => exact hforms form List.mem_cons_self
  | optional form =>
      by_cases hnull : j = .null
      · rw [hnull, h.varies.eq_null_iff.1 hnull]
        exact varies_accept (.same _ _)
      · rw [readValue_optional_of_ne o path hnull,
          readValue_optional_of_ne o path (mt h.varies.eq_null_iff.2 hnull)]
        exact hforms form List.mem_cons_self
  | choice forms text listsNull =>
      by_cases hnull : j = .null
      · rw [hnull, h.varies.eq_null_iff.1 hnull]
        exact varies_accept (.same _ _)
      · rw [readValue_choice_of_ne o path hnull,
          readValue_choice_of_ne o path (mt h.varies.eq_null_iff.2 hnull)]
        have hfirst : Option.Rel (ShapeVaries v o (.choice forms text listsNull))
            (forms.findSome? fun form => (readForm o path form j).clean?)
            (forms.findSome? fun form => (readForm o path form j').clean?) :=
          rel_findSome? fun form hform => (hforms form hform).clean?
        rcases option_rel_iff.1 hfirst with ⟨ha, hb⟩ | ⟨a, b, ha, hb, hab⟩
        · rw [ha, hb]
          exact varies_refuse path rfl fun hv => by rw [h.varies.kind_eq hv]
        · rw [ha, hb]
          exact varies_accept hab

/-! ### Arrays and maps -/

theorem forall₂_mapIdx {α β γ δ : Type} {R : α → β → Prop} {S : γ → δ → Prop} {f : ℕ → α → γ}
    {g : ℕ → β → δ} {l : List α} {l' : List β} (h : List.Forall₂ R l l')
    (hfg : ∀ i a b, R a b → S (f i a) (g i b)) : List.Forall₂ S (l.mapIdx f) (l'.mapIdx g) := by
  induction h generalizing f g with
  | nil => exact .nil
  | cons hab _ ih =>
      rw [List.mapIdx_cons, List.mapIdx_cons]
      exact .cons (hfg 0 _ _ hab) (ih fun i => hfg (i + 1))

theorem varies_readForm_list {items items' : List Json}
    (h : List.Forall₂ (ReadsAlike v o) items items') (path : Path) {item : Shape}
    (hfields : v.reorders = true → (Form.list item).FieldsDistinct) :
    (readForm o path (.list item) (.array items)).Varies v (FormVaries v o (.list item))
      (readForm o path (.list item) (.array items')) := by
  rw [readForm_array_list, readForm_array_list]
  refine varies_assembleList (forall₂_mapIdx h fun i _ _ hj => ?_)
  exact hj.readValue (fun hv => (hfields hv).of_list) _

section
variable {members mid members' : List (String × Json)}
  (h : List.Forall₂ (Keyed fun _ => ReadsAlike v o) members mid) (horder : v.Ordered mid members')

include h horder

theorem varies_readForm_map (path : Path) {item : Shape}
    (hfields : v.reorders = true → (Form.map item).FieldsDistinct) :
    (readForm o path (.map item) (.object members)).Varies v (FormVaries v o (.map item))
      (readForm o path (.map item) (.object members')) := by
  rw [readForm_object_map, readForm_object_map]
  refine varies_assembleMap ?_ (horder.map _)
  rw [List.forall₂_map_left_iff, List.forall₂_map_right_iff]
  refine h.imp fun m m' hm => ⟨hm.1, ?_⟩
  rw [← hm.1]
  exact hm.2.readValue (fun hv => (hfields hv).of_map) _

/-! ### Extensions -/

variable (ho : v.reorders = true → o.FieldsDistinct)
  (hfunctions : ∀ key function read, (key, Handler.function function read) ∉ o.registry)

include ho hfunctions

omit h horder in
theorem ReadsAlike.readExtension (h : ReadsAlike v o j j') (chain : List String) (path : Path)
    (name : String) :
    (readExtension o chain path name j).Varies v (ExtensionVaries v o chain name)
      (readExtension o chain path name j') := by
  rw [Reading.readExtension, Reading.readExtension]
  split_ifs
  · exact ⟨.none, .nil⟩
  cases hhandler : o.handler? chain name with
  | none => exact varies_accept (.verbatim chain name h.varies)
  | some handler =>
      cases handler with
      | record t =>
          refine varies_extensionOutcome (.verbatim chain name h.varies) ?_
          exact (h.forms _ _ fun hv => (ho hv).of_handler? hhandler).imp fun _ _ =>
            .handled hhandler
      | function function read =>
          obtain ⟨key, hkey⟩ := Options.mem_registry_of_handler? hhandler
          exact absurd hkey (hfunctions key function read)

theorem pairs_readBlock (path : Path) (chain : List String) :
    v.Pairs (Keyed (ExtensionVaries v o chain)) (readBlock o chain path (.object members)).1
        (readBlock o chain path (.object members')).1 ∧
      v.Pairs (Finding.Varies v) (readBlock o chain path (.object members)).2
        (readBlock o chain path (.object members')).2 := by
  refine pairs_presentEntries ?_ (horder.map _)
  rw [List.forall₂_map_left_iff, List.forall₂_map_right_iff]
  refine h.imp fun m m' hm => ⟨hm.1, ?_⟩
  rw [← hm.1]
  exact hm.2.readExtension ho hfunctions chain path m.1

end

/-! ### Objects -/

theorem ReadsAlike.readMember (h : ReadsAlike v o j j') {t : ObjectType}
    (hfields : v.reorders = true → (Form.object t).FieldsDistinct) (path : Path) (key : String) :
    (readMember o t path key j).1.Varies v o t (readMember o t path key j').1 ∧
      v.Pairs (Finding.Varies v) (readMember o t path key j).2 (readMember o t path key j').2 := by
  cases hproperty : t.property? key with
  | some p =>
      have hp := List.mem_of_find?_eq_some hproperty
      obtain ⟨hvalue, hfindings⟩ := h.readValue (fun hv => (hfields hv).of_property hp) (path.key key)
      rw [readMember_of_property hproperty, readMember_of_property hproperty]
      exact ⟨.field (rel_imp (fun _ _ => .property hp) hvalue), hfindings⟩
  | none =>
      rw [readMember_of_unlisted hproperty, readMember_of_unlisted hproperty, readOther, readOther]
      split_ifs
      · exact ⟨.extensions (h.block _ _).1, (h.block _ _).2⟩
      · exact ⟨.extras h.varies, .nil⟩
      · exact ⟨.unknown key h.varies, .nil⟩
      · exact ⟨.dropped, .nil⟩

section
variable {t : ObjectType} {path : Path} {members mid members' : List (String × Json)}

/-- Members in the same order. -/
theorem aligned_foldl_memberParts
    (h : List.Forall₂ (Keyed fun _ => ReadsAlike v o) members mid)
    (hfields : v.reorders = true → (Form.object t).FieldsDistinct) :
    Aligned v o t ((memberParts o t path members).foldl addPart t.blank)
      ((memberParts o t path mid).foldl addPart t.blank) := by
  refine (Aligned.blank v o t).foldl ?_
  rw [memberParts, memberParts, List.forall₂_map_left_iff, List.forall₂_map_right_iff]
  refine h.imp fun m m' hm => ?_
  rw [← hm.1]
  exact (hm.2.readMember hfields path m.1).1

theorem pairs_memberFindings (h : List.Forall₂ (Keyed fun _ => ReadsAlike v o) members mid)
    (hfields : v.reorders = true → (Form.object t).FieldsDistinct) :
    v.Pairs (Finding.Varies v) (memberFindings o t path members) (memberFindings o t path mid) := by
  have hkeys : members.map (·.1) = mid.map (·.1) := (Table.forall₂_keyed_iff.1 h).1
  refine .append (.flatMap h fun m m' hm => ?_) ?_
  · rw [← hm.1]
    exact (hm.2.readMember hfields path m.1).2
  · rw [hkeys]
    exact .of_forall₂ (List.forall₂_same.2 fun f _ => .refl v f)

theorem missingFindings_congr {keys keys' : List String} (h : ∀ key, key ∈ keys ↔ key ∈ keys') :
    missingFindings t path keys = missingFindings t path keys' := by
  have hcontains (key : String) : keys.contains key = keys'.contains key := by
    rw [Bool.eq_iff_iff, List.contains_iff_mem, List.contains_iff_mem, h]
  simp only [missingFindings, hcontains]

/-- Members with distinct keys that set the same field are the same. -/
theorem set?_unique (hfields : (t.properties.map (·.field)).Nodup)
    (hkeys : (members.map (·.1)).Nodup) :
    ∀ e ∈ (memberParts o t path members).filterMap Part.set?,
      ∀ e' ∈ (memberParts o t path members).filterMap Part.set?, e.1 = e'.1 → e = e' := by
  rintro ⟨name, a⟩ he ⟨_, a'⟩ he' rfl
  obtain ⟨m, hm, p, hp, hfield, ha⟩ := mem_set?_memberParts.1 he
  obtain ⟨m', hm', p', hp', hfield', ha'⟩ := mem_set?_memberParts.1 he'
  have hproperty : p = p' := List.inj_on_of_nodup_map hfields (List.mem_of_find?_eq_some hp)
    (List.mem_of_find?_eq_some hp') (hfield.trans hfield'.symm)
  have hkey : p.key = m.1 := by simpa using List.find?_some hp
  have hkey' : p'.key = m'.1 := by simpa using List.find?_some hp'
  subst hproperty
  obtain rfl := List.inj_on_of_nodup_map hkeys hm hm' (hkey.symm.trans hkey')
  rw [ha] at ha'
  rw [Option.some.inj ha']

theorem foldl_addPart_eq_withUnknown {r : Record} {parts parts' : List Part}
    (hset : Table.putAll r.fields (parts.filterMap Part.set?) =
      Table.putAll r.fields (parts'.filterMap Part.set?))
    (hextensions : parts.filterMap Part.extensions? = parts'.filterMap Part.extensions?)
    (hextras : parts.filterMap Part.extras? = parts'.filterMap Part.extras?) :
    parts'.foldl addPart r =
      withUnknown (parts.foldl addPart r) (parts'.foldl addPart r).unknown := by
  rw [foldl_addPart_eq r parts', foldl_addPart_eq r parts, hset, hextensions, hextras]
  rfl

/-- The same members in another order make the same record, but for the order of unknown ones. -/
theorem exists_foldl_eq_withUnknown (o : Options) (path : Path) (horder : v.Ordered mid members')
    (hkeys : v.reorders = true → (mid.map (·.1)).Nodup)
    (hfields : v.reorders = true → (Form.object t).FieldsDistinct) :
    ∃ unknown, (memberParts o t path members').foldl addPart t.blank =
        withUnknown ((memberParts o t path mid).foldl addPart t.blank) unknown ∧
      v.Ordered ((memberParts o t path mid).foldl addPart t.blank).unknown unknown := by
  cases hv : v.reorders with
  | false =>
      rw [← horder.2 hv]
      exact ⟨_, (withUnknown_unknown _).symm, .refl v _⟩
  | true =>
      have hmid := hkeys hv
      have hmembers : (members'.map (·.1)).Nodup := (horder.1.map _).nodup_iff.1 hmid
      have hparts : v.Ordered (memberParts o t path mid) (memberParts o t path members') :=
        horder.map _
      refine ⟨_, foldl_addPart_eq_withUnknown
        (Table.putAll_perm (hparts.filterMap Part.set?).1
          (set?_unique (hfields hv).fields hmid) mem_keys_blank_of_mem_set?) ?_ ?_, ?_⟩
      · rw [memberParts, memberParts, List.filterMap_map, List.filterMap_map]
        exact Table.filterMap_perm_of_key hmid horder.1 fun m hkey =>
          extensions?_readMember_of_ne hkey m.2
      · rw [memberParts, memberParts, List.filterMap_map, List.filterMap_map]
        exact Table.filterMap_perm_of_key hmid horder.1 fun m hkey =>
          extras?_readMember_of_ne hkey m.2
      · rw [unknown_foldl_memberParts hmid, unknown_foldl_memberParts hmembers]
        exact hparts.filterMap Part.unknown?

theorem ordered_memberFindings (horder : v.Ordered mid members') :
    v.Ordered (memberFindings o t path mid) (memberFindings o t path members') := by
  refine (horder.flatMap _).append ?_
  rw [missingFindings_congr fun key => (horder.1.map _).mem_iff]
  exact .refl v _

theorem varies_readForm_object
    (h : List.Forall₂ (Keyed fun _ => ReadsAlike v o) members mid) (horder : v.Ordered mid members')
    (hkeys : v.reorders = true → (members.map (·.1)).Nodup)
    (hfields : v.reorders = true → (Form.object t).FieldsDistinct) :
    (readForm o path (.object t) (.object members)).Varies v (FormVaries v o (.object t))
      (readForm o path (.object t) (.object members')) := by
  rw [(Table.forall₂_keyed_iff.1 h).1] at hkeys
  obtain ⟨unknown, heq, hunknown⟩ :=
    exists_foldl_eq_withUnknown o path horder hkeys hfields
  rw [readForm_object_eq, readForm_object_eq, heq]
  refine ⟨.some (.record ((aligned_foldl_memberParts h hfields).varies hunknown)), ?_⟩
  exact (pairs_memberFindings h hfields).reorder (ordered_memberFindings horder)

end

/-! ### The whole document -/

/-- Whether all ways to write a value make the same. -/
def Rewritable (v : Variation) (o : Options) (j : Json) : Prop :=
  ∀ j', (v.reorders = true → j.KeysDistinct) → j.Varies v j' → ReadsAlike v o j j'

theorem forall₂_readsAlike {items items' : List Json} (ih : ∀ j ∈ items, Rewritable v o j)
    (hkeys : v.reorders = true → (Json.array items).KeysDistinct)
    (h : List.Forall₂ (Json.Varies v) items items') :
    List.Forall₂ (ReadsAlike v o) items items' := by
  refine ((List.forall₂_and_left _ _).2 ⟨fun j hj => hj, h⟩).imp ?_
  rintro j j' ⟨hj, hvaries⟩
  exact ih j hj j' (fun hv => Json.KeysDistinct.array_iff.1 (hkeys hv) j hj) hvaries

theorem forall₂_keyed_readsAlike {members mid : List (String × Json)}
    (ih : ∀ m ∈ members, Rewritable v o m.2)
    (hkeys : v.reorders = true → (Json.object members).KeysDistinct)
    (h : List.Forall₂ (Json.MemberVaries v) members mid) :
    List.Forall₂ (Keyed fun _ => ReadsAlike v o) members mid := by
  refine ((List.forall₂_and_left _ _).2 ⟨fun m hm => hm, h⟩).imp ?_
  rintro m m' ⟨hm, hvaries⟩
  refine ⟨hvaries.key_eq, ih m hm m'.2 (fun hv => ?_) hvaries.value⟩
  exact (Json.KeysDistinct.object_iff.1 (hkeys hv)).2 m hm

/-- Along the document, one container after the other. -/
theorem rewritable (ho : v.reorders = true → o.FieldsDistinct)
    (hfunctions : ∀ key function read, (key, Handler.function function read) ∉ o.registry)
    (j : Json) : Rewritable v o j := by
  -- What is no object is not read for extensions.
  have hkind {j j' : Json} (h : j.Varies v j') (path : Path) : v.Pairs (Finding.Varies v)
      [.ofPath path (.wrongKind .object j.kind)] [.ofPath path (.wrongKind .object j'.kind)] :=
    pairs_problem path rfl fun hv => by rw [h.kind_eq hv]
  induction j using Json.inductionOn with
  | array items ih =>
      intro j' hkeys h
      cases h with
      | @array _ items' hitems =>
          have halike := forall₂_readsAlike ih hkeys hitems
          refine ⟨.array hitems, fun path form hfields => ?_, fun path chain =>
            ⟨.nil, hkind (.array hitems) path⟩⟩
          cases form with
          | list item => exact varies_readForm_list halike path hfields
          | _ => exact varies_readLeaf (.array hitems) path _
  | object members ih =>
      intro j' hkeys h
      cases h with
      | @object _ mid members' hmembers horder =>
          have halike := forall₂_keyed_readsAlike ih hkeys hmembers
          refine ⟨.object hmembers horder, fun path form hfields => ?_, fun path chain =>
            pairs_readBlock halike horder ho hfunctions path chain⟩
          cases form with
          | map item => exact varies_readForm_map halike horder path hfields
          | object t =>
              exact varies_readForm_object halike horder
                (fun hv => (Json.KeysDistinct.object_iff.1 (hkeys hv)).1) hfields
          | _ => exact varies_readLeaf (.object hmembers horder) path _
  | scalar j harray hobject =>
      intro j' hkeys h
      have hleaf := h
      cases h with
      | array => exact absurd rfl (harray _)
      | object => exact absurd rfl (hobject _)
      | _ => exact ⟨hleaf, fun path form _ => varies_readLeaf hleaf path form,
          fun path chain => ⟨.nil, hkind hleaf path⟩⟩

theorem varies_readRecord (ho : v.reorders = true → o.FieldsDistinct)
    (hfunctions : ∀ key function read, (key, Handler.function function read) ∉ o.registry)
    {t : ObjectType} (hfields : v.reorders = true → (Form.object t).FieldsDistinct) (path : Path)
    (hkeys : v.reorders = true → j.KeysDistinct) (h : j.Varies v j') :
    Option.Rel (RecordVaries v o t) (readRecord o t path j).1 (readRecord o t path j').1 ∧
      v.Pairs (Finding.Varies v) (readRecord o t path j).2 (readRecord o t path j').2 := by
  obtain ⟨hvalue, hfindings⟩ :=
    (rewritable ho hfunctions j j' hkeys h).forms path (.object t) hfields
  exact ⟨rel_record? hvalue, hfindings⟩

end

/-- The order of members makes no difference. A document with the members of its objects in another
order, at any depth, is read as the same record, with what has keys in another order; and the same
is found, in another order. -/
theorem readRecord_reordered {o : Options} (ho : o.FieldsDistinct)
    (hfunctions : ∀ key function read, (key, Handler.function function read) ∉ o.registry)
    {t : ObjectType} (ht : t ∈ Schema.allTypes) (path : Path) {raw raw' : Json}
    (hkeys : raw.KeysDistinct) (h : raw.Varies .reordering raw') :
    Option.Rel (RecordVaries .reordering o t) (readRecord o t path raw).1
        (readRecord o t path raw').1 ∧
      (readRecord o t path raw).2.Perm (readRecord o t path raw').2 := by
  obtain ⟨hrecord, mid, hpairs, horder⟩ := varies_readRecord (fun _ => ho) hfunctions
    (fun _ => Schema.fieldsDistinct_of_mem ht) path (fun _ => hkeys) h
  refine ⟨hrecord, ?_⟩
  have hmid : (readRecord o t path raw).2 = mid := by
    rw [← List.forall₂_eq_eq_eq]
    exact hpairs.imp fun _ _ hf => hf.same rfl
  rw [hmid]
  exact horder.1

/-- A scene with a name and a node of the wrong kinds, and with extras. -/
theorem readRecord_reordered_scene :
    let raw : Json := .object [("name", .number (.int 5)), ("nodes", .array [.bool true]),
      ("extras", .object [("a", .null), ("b", .null)])]
    let raw' : Json := .object [("nodes", .array [.bool true]), ("name", .number (.int 5)),
      ("extras", .object [("b", .null), ("a", .null)])]
    Options.FieldsDistinct {} ∧
      (∀ key function read, (key, .function function read) ∉ Registry.default) ∧
      Schema.scene ∈ Schema.allTypes ∧ raw.KeysDistinct ∧ raw.Varies .reordering raw' ∧
      ((readRecord {} Schema.scene ⟨"", []⟩ raw).2.map (·.path.steps) =
          [[.key "name"], [.key "nodes", .index 0]] ∧
        (readRecord {} Schema.scene ⟨"", []⟩ raw').2.map (·.path.steps) =
          [[.key "nodes", .index 0], [.key "name"]]) ∧
      Option.Rel (RecordVaries .reordering {} Schema.scene)
          (readRecord {} Schema.scene ⟨"", []⟩ raw).1
          (readRecord {} Schema.scene ⟨"", []⟩ raw').1 ∧
        (readRecord {} Schema.scene ⟨"", []⟩ raw).2.Perm
          (readRecord {} Schema.scene ⟨"", []⟩ raw').2 := by
  intro raw raw'
  have hscene : Schema.scene ∈ Schema.allTypes := by
    simp [Schema.allTypes, Schema.coreTypes]
  have hkeys : raw.KeysDistinct := by simp [raw]
  have hextras : Json.Varies .reordering (.object [("a", .null), ("b", .null)])
      (.object [("b", .null), ("a", .null)]) :=
    .object (.cons (.mk "a" .null) (.cons (.mk "b" .null) .nil)) (.of_perm rfl (.swap _ _ _))
  have hvaries : raw.Varies .reordering raw' :=
    .object (.cons (.mk "name" (.number (.same _)))
      (.cons (.mk "nodes" (.array (.cons (.bool true) .nil))) (.cons (.mk "extras" hextras) .nil)))
      (.of_perm rfl (.swap _ _ _))
  exact ⟨Options.fieldsDistinct_default, Options.function_notMem_default, hscene, hkeys, hvaries,
    ⟨rfl, rfl⟩, readRecord_reordered Options.fieldsDistinct_default
      Options.function_notMem_default hscene ⟨"", []⟩ hkeys hvaries⟩

/-- An integer is the same number as the float of its value. A document with floats in the place of
any integers, but for negative zeros, is read as a record with equal typed values at every depth; in
what is kept as it stands the floats are in their places. As much is found, at the same paths, in the
same order. -/
theorem readRecord_retyped {o : Options}
    (hfunctions : ∀ key function read, (key, Handler.function function read) ∉ o.registry)
    (t : ObjectType) (path : Path) {raw raw' : Json} (h : raw.Varies .retyping raw') :
    Option.Rel (RecordVaries .retyping o t) (readRecord o t path raw).1
        (readRecord o t path raw').1 ∧
      List.Forall₂ (fun f f' => f.scope = f'.scope ∧ f.path = f'.path ∧ f.severity = f'.severity)
        (readRecord o t path raw).2 (readRecord o t path raw').2 := by
  have hno : Variation.retyping.reorders ≠ true := by decide
  obtain ⟨hrecord, mid, hpairs, horder⟩ := varies_readRecord (fun hv => absurd hv hno) hfunctions
    (fun hv => absurd hv hno) path (fun hv => absurd hv hno) h
  refine ⟨hrecord, ?_⟩
  rw [← horder.2 rfl]
  exact hpairs.imp fun _ _ hf => ⟨hf.scope, hf.path, hf.severity⟩

/-- A scene with a node and its extras as floats. -/
theorem readRecord_retyped_scene :
    let four : Binary64 := ⟨0x4010000000000000⟩
    let raw : Json := .object [("nodes", .array [.number (.int 3), .number (.int 4), .null]),
      ("extras", .number (.int 4))]
    let raw' : Json := .object [("nodes", .array [.number (.int 3), .number (.float four), .null]),
      ("extras", .number (.float four))]
    (∀ key function read, (key, .function function read) ∉ Registry.default) ∧
      raw.Varies .retyping raw' ∧
      ((readRecord {} Schema.scene ⟨"", []⟩ raw').1.map fun r =>
        (r.field "nodes").items.map Value.int?) = some [some 3, some 4] ∧
      Option.Rel (RecordVaries .retyping {} Schema.scene)
          (readRecord {} Schema.scene ⟨"", []⟩ raw).1
          (readRecord {} Schema.scene ⟨"", []⟩ raw').1 ∧
        List.Forall₂ (fun f f' => f.scope = f'.scope ∧ f.path = f'.path ∧ f.severity = f'.severity)
          (readRecord {} Schema.scene ⟨"", []⟩ raw).2
          (readRecord {} Schema.scene ⟨"", []⟩ raw').2 := by
  intro four raw raw'
  have hfour : four.isFinite = true ∧ four.value = (4 : ℤ) :=
    Binary64.toInt?_eq_some_iff.1 (by decide +kernel)
  have hnumber : Json.Varies .retyping (.number (.int 4)) (.number (.float four)) :=
    .number (.retyped rfl hfour.1 hfour.2 (by decide))
  have hnodes : Json.Varies .retyping (.array [.number (.int 3), .number (.int 4), .null])
      (.array [.number (.int 3), .number (.float four), .null]) :=
    .array (.cons (.number (.same _)) (.cons hnumber (.cons .null .nil)))
  have hvaries : raw.Varies .retyping raw' :=
    .object (.cons (.mk "nodes" hnodes) (.cons (.mk "extras" hnumber) .nil)) (.refl _ _)
  exact ⟨Options.function_notMem_default, hvaries, by decide +kernel,
    readRecord_retyped Options.function_notMem_default Schema.scene ⟨"", []⟩ hvaries⟩

end Gltf.Reading
