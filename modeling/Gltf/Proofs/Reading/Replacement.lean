import Gltf.Proofs.Reading.Frame
import Mathlib

/-!
Another value in one place of a document. Everything that is read around the place makes a frame
that fits it, and only what stands there decides what is put into the frame. The proof goes along
the surroundings of the place, one array or object after the other.
-/

namespace Gltf.Reading

section
variable {o : Options} {path : Path} {t : ObjectType}

/-! ### Objects -/

/-- Members with different keys go to different places, but for unknown ones. -/
theorem apart_readMember (hsep : Separate t.properties t.derived) {key key' : String} {j j' : Json}
    (hne : key ≠ key') (hknown : (readMember o t path key j).1.unknown? = none) :
    (readMember o t path key j).1.Apart (readMember o t path key' j').1 := by
  have hfields : (t.properties.map (·.field)).Nodup := hsep.fields.of_append_left
  cases hp : t.property? key with
  | some p =>
      rw [readMember_of_property hp]
      cases hq : t.property? key' with
      | some q =>
          rw [readMember_of_property hq]
          obtain ⟨hpmem, rfl⟩ := (ObjectType.property?_eq_some_iff hsep.keys).1 hp
          obtain ⟨hqmem, rfl⟩ := (ObjectType.property?_eq_some_iff hsep.keys).1 hq
          intro hfield
          exact hne (congrArg Property.key (List.inj_on_of_nodup_map hfields hpmem hqmem hfield))
      | none =>
          rw [readMember_of_unlisted hq, readOther]
          split_ifs <;> trivial
  | none =>
      rw [readMember_of_unlisted hp, readOther] at hknown ⊢
      cases hq : t.property? key' with
      | some q =>
          rw [readMember_of_property hq]
          split_ifs at hknown ⊢ <;> trivial
      | none =>
          rw [readMember_of_unlisted hq, readOther]
          -- Two members with the same meaning of their own would have the same key.
          by_cases hextensions : key = "extensions"
          · have hextensions' : key' ≠ "extensions" := fun h => hne (hextensions.trans h.symm)
            rw [if_pos hextensions, if_neg hextensions']
            split_ifs <;> trivial
          rw [if_neg hextensions] at hknown ⊢
          by_cases hextras : key = "extras"
          · have hextras' : key' ≠ "extras" := fun h => hne (hextras.trans h.symm)
            rw [if_pos hextras, if_neg hextras']
            split_ifs <;> trivial
          rw [if_neg hextras] at hknown ⊢
          by_cases hcapture : o.captureUnknown = true
          · rw [if_pos hcapture] at hknown
            cases hknown
          · rw [if_neg hcapture]
            split_ifs <;> trivial

theorem known_readMember (key : String) (j : Json) :
    (readMember o t path key j).1.Known t.blank := by
  cases hp : t.property? key with
  | some p =>
      rw [readMember_of_property hp, Part.Known, keys_blank]
      exact List.mem_append_left _ (List.mem_map_of_mem (List.mem_of_find?_eq_some hp))
  | none =>
      rw [readMember_of_unlisted hp, readOther]
      split_ifs <;> trivial

section
variable {before after : List (String × Json)} {key : String} {j : Json}

/-- A member gives its part to the record of the other members. -/
theorem foldl_memberParts_insert (hsep : Separate t.properties t.derived)
    (hkeys : ((before ++ (key, j) :: after).map (·.1)).Nodup)
    (hknown : (readMember o t path key j).1.unknown? = none) :
    (memberParts o t path (before ++ (key, j) :: after)).foldl addPart t.blank =
      addPart ((memberParts o t path (before ++ after)).foldl addPart t.blank)
        (readMember o t path key j).1 := by
  have hafter : ∀ q ∈ memberParts o t path after, (readMember o t path key j).1.Apart q := by
    intro q hq
    obtain ⟨m, hm, rfl⟩ := List.mem_map.1 hq
    refine apart_readMember hsep ?_ hknown
    rintro rfl
    rw [List.map_append, List.map_cons, List.nodup_append', List.nodup_cons] at hkeys
    exact hkeys.2.1.1 (List.mem_map.2 ⟨m, hm, rfl⟩)
  rw [memberParts, memberParts, List.map_append, List.map_append, List.map_cons]
  exact foldl_addPart_insert hafter (known_readMember key j)

theorem foldl_memberParts_unknown (hcapture : o.captureUnknown = true)
    (hkeys : ((before ++ (key, j) :: after).map (·.1)).Nodup)
    (hpart : (readMember o t path key j).1 = .unknown key j) :
    (memberParts o t path (before ++ (key, j) :: after)).foldl addPart t.blank =
      withUnknown ((memberParts o t path (before ++ after)).foldl addPart t.blank)
        ((before.filter fun m => !t.knows m.1) ++
          (key, j) :: after.filter fun m => !t.knows m.1) := by
  have hparts (members : List (String × Json)) :
      (memberParts o t path members).filterMap Part.unknown? =
        members.filter fun m => !t.knows m.1 := by
    rw [filterMap_unknown?_memberParts, if_pos hcapture]
  have hsublist : ((before.filter fun m => !t.knows m.1) ++
      (key, j) :: after.filter fun m => !t.knows m.1).Sublist (before ++ (key, j) :: after) :=
    List.filter_sublist.append (List.filter_sublist.cons_cons _)
  have hsplit : memberParts o t path (before ++ (key, j) :: after) =
      memberParts o t path before ++ .unknown key j :: memberParts o t path after := by
    rw [memberParts, List.map_append, List.map_cons, hpart]
    rfl
  rw [hsplit, foldl_addPart_unknown, hparts, hparts, Table.putAll_of_nodup]
  · rw [memberParts, memberParts, memberParts, List.map_append]
    rfl
  · exact hkeys.sublist (hsublist.map _)

/-- What is found in an object around a member. -/
theorem memberFindings_insert :
    memberFindings o t path (before ++ (key, j) :: after) =
      (before.flatMap fun m => (readMember o t path m.1 m.2).2) ++
        (readMember o t path key j).2 ++
        ((after.flatMap fun m => (readMember o t path m.1 m.2).2) ++
          missingFindings t path (before.map (·.1) ++ key :: after.map (·.1))) := by
  simp [memberFindings]

end

/-! ### Around one place -/

/-- What is expected in a place is plain and regular, and an extension lies where it says. -/
def Slot.Sound (path : Path) : Slot → Prop
  | .shape s => s.isPlain = true ∧ s.isRegular = true
  | .extension _ outer name => path = outer.key name
  | _ => True

/-- A way to read a value, where `slot` is expected, reads what stands in a place inside as what is
expected there, and puts it into a frame. -/
def Framed (o : Options) (path : Path) (slot : Slot) (read : Json → Outcome)
    (surroundings : List Surround) : Prop :=
  ∃ (frame : Frame) (inner : Slot), slot.Along o surroundings frame.layers inner ∧
    inner.Sound (path.into surroundings) ∧
    ∀ j, read (Json.fill surroundings j) = frame.close (inner.read o (path.into surroundings) j)

variable {slot : Slot} {read : Json → Outcome} {s : Surround}

theorem framed_verbatim (h : ∀ j, read (s.fill j) = .accept (.json (s.fill j))) :
    Framed o path slot read [s] := by
  refine ⟨.ofVerbatim s, .kept, .cons .verbatim .nil, trivial, fun j => ?_⟩
  rw [Slot.read, Frame.close_ofVerbatim]
  exact h j

theorem framed_fixed (out : Outcome) (h : ∀ j, read (s.fill j) = out) :
    Framed o path slot read [s] := by
  refine ⟨.ofFixed out, .passed, .cons .fixed .nil, trivial, fun j => ?_⟩
  rw [Slot.read, Frame.close_ofFixed]
  exact h j

section
variable {before after : List (String × Json)} {key : String}

/-- The object around a member makes one layer, if that gives the record and what is expected there
finds the same. -/
theorem framed_member {layer : Layer} {inner : Slot}
    (hinside : slot.Inside o (.member before key after) layer inner)
    (hsound : inner.Sound (path.key key))
    (hrecord : ∀ j, layer.plug (inner.read o (path.key key) j).value =
      some (.record ((memberParts o t path (before ++ (key, j) :: after)).foldl addPart t.blank)))
    (hfindings : ∀ j, (readMember o t path key j).2 = (inner.read o (path.key key) j).findings) :
    Framed o path slot (readForm o path (.object t)) [.member before key after] := by
  let frame : Frame := {
    layers := [layer]
    before := before.flatMap fun m => (readMember o t path m.1 m.2).2
    after := (after.flatMap fun m => (readMember o t path m.1 m.2).2) ++
      missingFindings t path (before.map (·.1) ++ key :: after.map (·.1)) }
  refine ⟨frame, inner, .cons hinside .nil, hsound, fun j => ?_⟩
  have hclose : frame.close (inner.read o (path.key key) j) =
      ⟨layer.plug (inner.read o (path.key key) j).value,
        memberFindings o t path (before ++ (key, j) :: after)⟩ := by
    rw [memberFindings_insert, hfindings]
    simp [frame, Frame.close]
  rw [hrecord, ← readForm_object_eq] at hclose
  exact hclose.symm

/-- A member that is not unknown has a place of its own in the record of the others. -/
theorem framed_known (hsep : Separate t.properties t.derived)
    (hkeys : ∀ j : Json, ((before ++ (key, j) :: after).map (·.1)).Nodup)
    {layer : Record → Layer} {inner : Slot} (part : Json → Part)
    (hinside : ∀ r, slot.Inside o (.member before key after) (layer r) inner)
    (hsound : inner.Sound (path.key key))
    (hread : ∀ j, readMember o t path key j = (part j, (inner.read o (path.key key) j).findings))
    (hknown : ∀ j, (part j).unknown? = none)
    (hplug : ∀ r j, (layer r).plug (inner.read o (path.key key) j).value =
      some (.record (addPart r (part j)))) :
    Framed o path slot (readForm o path (.object t)) [.member before key after] := by
  refine framed_member (hinside ((memberParts o t path (before ++ after)).foldl addPart t.blank))
    hsound (fun j => ?_) fun j => by rw [hread]
  rw [hplug, foldl_memberParts_insert hsep (hkeys j) (by rw [hread, hknown]), hread]

theorem framed_object (hform : slot.form? o = some (.object t)) (hplain : t.isPlain = true)
    (hregular : t.isRegular = true) {old : Json}
    (hkeys : ((before ++ (key, old) :: after).map (·.1)).Nodup) :
    Framed o path slot (readForm o path (.object t)) [.member before key after] := by
  obtain ⟨hsep, hproperties⟩ := t.isRegular_iff.1 hregular
  have hkeys' (j : Json) : ((before ++ (key, j) :: after).map (·.1)).Nodup := by
    simpa using hkeys
  -- What is expected of a member is told by its key alone.
  cases hproperty : t.property? key with
  | some p =>
      have hp := List.mem_of_find?_eq_some hproperty
      exact framed_known hsep hkeys'
        (fun j => .field p.field (readValue o (path.key key) p.shape j).value)
        (fun _ => .property hform hproperty)
        ⟨(t.isPlain_iff.1 hplain p hp).1, (hproperties p hp).1⟩ (readMember_of_property hproperty)
        (fun _ => rfl) (fun _ _ => rfl)
  | none =>
      have hmember (j : Json) : readMember o t path key j = readOther o t path key j :=
        readMember_of_unlisted hproperty j
      by_cases hextensions : key = "extensions"
      · subst hextensions
        exact framed_known hsep hkeys'
          (fun j => .extensions (readBlock o t.lineage.chain (path.key "extensions") j).1)
          (fun _ => .extensions hform hproperty) trivial hmember (fun _ => rfl) (fun _ _ => rfl)
      by_cases hextras : key = "extras"
      · subst hextras
        exact framed_known hsep hkeys' .extras (fun _ => .extras hform hproperty) trivial hmember
          (fun _ => rfl) (fun _ _ => rfl)
      cases hcapture : o.captureUnknown with
      | false =>
          have hdropped (j : Json) : readMember o t path key j = (.dropped, []) := by
            rw [hmember, readOther, if_neg hextensions, if_neg hextras, hcapture]
            rfl
          exact framed_known hsep hkeys' (fun _ => .dropped) (fun r => .fixed) trivial hdropped
            (fun _ => rfl) (fun r _ => rfl)
      | true =>
          have hunknown (j : Json) : readMember o t path key j = (.unknown key j, []) := by
            rw [hmember, readOther, if_neg hextensions, if_neg hextras, if_pos hcapture]
          have hknows : t.knows key = false := by
            have hunlisted := ObjectType.property?_eq_none_iff.1 hproperty
            simp only [ObjectType.knows, Bool.or_eq_false_iff, beq_eq_false_iff_ne]
            exact ⟨⟨by simpa using hunlisted, hextensions⟩, hextras⟩
          -- Its place is among the other unknown members, not behind them.
          let others := (memberParts o t path (before ++ after)).foldl addPart t.blank
          have hinside : slot.Inside o (.member before key after)
              (.unknown others (before.filter fun m => !t.knows m.1) key
                (after.filter fun m => !t.knows m.1)) .kept := .unknown hform hknows
          refine framed_member hinside trivial (fun j => ?_) fun j => ?_
          · rw [foldl_memberParts_unknown hcapture (hkeys' j) (by rw [hunknown])]
            rfl
          · rw [hunknown]
            rfl

end

/-! ### Forms -/

theorem readItems_append (item : Shape) (i : Nat) (values values' : List Json) :
    readItems o item path i (values ++ values') =
      readItems o item path i values ++ readItems o item path (i + values.length) values' := by
  induction values generalizing i with
  | nil => rfl
  | cons v values ih =>
      have hlength : i + 1 + values.length = i + (values.length + 1) := by omega
      rw [List.cons_append, readItems, readItems, ih, List.cons_append, List.length_cons, hlength]

theorem framed_list {item : Shape} (hform : slot.form? o = some (.list item))
    (hplain : item.isPlain = true) (hregular : item.isRegular = true) (before after : List Json) :
    Framed o path slot (readForm o path (.list item)) [.item before after] := by
  refine ⟨.ofItems (readItems o item path 0 before)
    (readItems o item path (before.length + 1) after), .shape item, .cons (.item hform) .nil,
    ⟨hplain, hregular⟩, fun j => ?_⟩
  rw [Frame.close_ofItems]
  have hitems : readItems o item path 0 (before ++ j :: after) =
      readItems o item path 0 before ++ readValue o (path.index before.length) item j ::
        readItems o item path (before.length + 1) after := by
    rw [readItems_append, Nat.zero_add, readItems]
    rfl
  exact congrArg assembleList hitems

theorem framed_map {item : Shape} (hform : slot.form? o = some (.map item))
    (hplain : item.isPlain = true) (hregular : item.isRegular = true)
    (before : List (String × Json)) (key : String) (after : List (String × Json)) :
    Framed o path slot (readForm o path (.map item)) [.member before key after] := by
  refine ⟨.ofEntries (before.map fun m => (m.1, readValue o (path.key m.1) item m.2)) key
    (after.map fun m => (m.1, readValue o (path.key m.1) item m.2)), .shape item,
    .cons (.entry hform) .nil, ⟨hplain, hregular⟩, fun j => ?_⟩
  rw [Frame.close_ofEntries]
  refine (readForm_object_map o path item _).trans ?_
  rw [List.map_append, List.map_cons]
  rfl

/-- A container that is not opened is refused for its kind. -/
theorem readLeaf_fill {form : Form} (hany : form ≠ .any) (j : Json) :
    readLeaf path form (s.fill j) = readLeaf path form (s.fill .null) := by
  cases s <;> cases form <;> first | rfl | exact absurd rfl hany

theorem framed_form {form : Form} (hform : slot.form? o = some form) (hplain : form.isPlain = true)
    (hregular : form.isRegular = true) {old : Json} (hkeys : (s.fill old).KeysDistinct) :
    Framed o path slot (readForm o path form) [s] := by
  by_cases hopens : Opens form (s.fill .null)
  · cases s with
    | item before after =>
        cases hopens with
        | list item => exact framed_list hform hplain hregular before after
    | member before key after =>
        cases hopens with
        | map item => exact framed_map hform hplain hregular before key after
        | object t => exact framed_object hform hplain hregular (Surround.nodup_keys hkeys)
  · have hleaf (j : Json) : readForm o path form (s.fill j) = readLeaf path form (s.fill j) := by
      apply readForm_of_not_opens
      intro h
      apply hopens
      cases s <;> cases h <;> constructor
    by_cases hany : form = .any
    · subst hany
      exact framed_verbatim hleaf
    · exact framed_fixed _ fun j => (hleaf j).trans (readLeaf_fill hany j)

theorem framed_value {shape : Shape} (hplain : shape.isPlain = true)
    (hregular : shape.isRegular = true) {old : Json} (hkeys : (s.fill old).KeysDistinct) :
    Framed o path (.shape shape) (readValue o path shape) [s] := by
  cases shape with
  | required form => exact framed_form rfl hplain hregular hkeys
  | optional form =>
      have hform : Framed o path (.shape (.optional form)) (readForm o path form) [s] :=
        framed_form rfl hplain hregular hkeys
      obtain ⟨frame, inner, halong, hsound, hread⟩ := hform
      refine ⟨frame, inner, halong, hsound, fun j => ?_⟩
      exact (readValue_optional_of_ne o path (s.fill_ne_null j)).trans (hread j)
  | choice forms text listsNull => cases hplain

/-! ### Extensions -/

/-- An extension that is read as some value has the frame of that, with its name told. -/
theorem framed_within (h : Framed o path slot read [s])
    (hvalue : ∀ j, (read (s.fill j)).value ≠ none) (name : String) :
    Framed o path slot (fun raw => extensionOutcome name raw (read raw)) [s] := by
  obtain ⟨frame, inner, halong, hsound, hread⟩ := h
  refine ⟨frame.within name, inner, halong, hsound, fun j => ?_⟩
  obtain ⟨v, hv⟩ := Option.ne_none_iff_exists'.1 (hvalue j)
  have hkept : extensionOutcome name (s.fill j) (read (s.fill j)) =
      ⟨(read (s.fill j)).value, (read (s.fill j)).findings.map (·.within name)⟩ := by
    rw [extensionOutcome, hv, Option.getD_some]
  rw [Frame.close_within, ← hread]
  exact hkept

/-- An extension that is refused stands as it is, with what is found. -/
theorem framed_refused (problem : Problem) (h : ∀ j, read (s.fill j) = .refuse path problem)
    (name : String) :
    Framed o path slot (fun raw => extensionOutcome name raw (read raw)) [s] := by
  refine ⟨{ layers := [.verbatim s], before := [(Finding.ofPath path problem).within name] }, .kept,
    .cons .verbatim .nil, trivial, fun j => ?_⟩
  exact congrArg (extensionOutcome name (s.fill j)) (h j)

theorem framed_block (chain : List String) :
    Framed o path (.block chain) (Slot.read o path (.block chain)) [s] := by
  cases s with
  | item before after =>
      exact framed_fixed ⟨some (.map []), [.ofPath path (.wrongKind .object .array)]⟩ fun j => rfl
  | member before key after =>
      refine ⟨.ofEntries (before.map fun e => (e.1, readExtension o chain path e.1 e.2)) key
        (after.map fun e => (e.1, readExtension o chain path e.1 e.2)), .extension chain path key,
        .cons .extension .nil, rfl, fun j => ?_⟩
      rw [Frame.close_ofEntries, Slot.read]
      simp [Json.fill, Surround.fill, readBlock, assembleMap, Slot.read]

section
variable (ho : o.BuiltIn)
  (hfunctions : ∀ key function read, (key, Handler.function function read) ∉ o.registry)

include ho hfunctions

theorem framed_extension {chain : List String} {outer : Path} {name : String} {old : Json}
    (hkeys : (s.fill old).KeysDistinct) :
    Framed o (outer.key name) (.extension chain outer name) (readExtension o chain outer name)
      [s] := by
  by_cases hdisabled : o.resolve chain name = .disabled
  · exact framed_fixed ⟨none, []⟩ fun j => by rw [readExtension, if_pos hdisabled]
  cases hhandler : o.handler? chain name with
  | none => exact framed_verbatim fun j => by rw [readExtension, if_neg hdisabled, hhandler]
  | some handler =>
      cases handler with
      | record t =>
          have ht := ho.of_handler? hhandler
          have hread : readExtension o chain outer name = fun raw =>
              extensionOutcome name raw (readForm o (outer.key name) (.object t) raw) := by
            funext raw
            rw [readExtension, if_neg hdisabled, hhandler]
          rw [hread]
          cases s with
          | item before after =>
              exact framed_refused (.wrongKind (.objectOf t.name) .array) (fun j => rfl) name
          | member before key after =>
              have hform : (Slot.extension chain outer name).form? o = some (.object t) := by
                rw [Slot.form?, hhandler]
              refine framed_within (framed_object hform (Schema.isPlain_of_mem t ht)
                (Schema.isRegular_of_mem t ht) (Surround.nodup_keys hkeys)) (fun j => ?_) name
              rw [Surround.fill, readForm_object_eq]
              exact Option.some_ne_none _
      | function function read =>
          obtain ⟨key, hkey⟩ := Options.mem_registry_of_handler? hhandler
          exact absurd hkey (hfunctions key function read)

/-! ### Along the surroundings -/

theorem framed_slot (hslot : slot.Sound path) {old : Json} (hkeys : (s.fill old).KeysDistinct) :
    Framed o path slot (slot.read o path) [s] := by
  cases slot with
  | shape shape => exact framed_value hslot.1 hslot.2 hkeys
  | block chain => exact framed_block chain
  | extension chain outer name =>
      obtain rfl : path = outer.key name := hslot
      exact framed_extension ho hfunctions hkeys
  | kept => exact framed_verbatim fun j => rfl
  | passed => exact framed_fixed ⟨none, []⟩ fun j => rfl

/-- Around a place at any depth: one step, and the frame inside by induction. -/
theorem framed (hslot : slot.Sound path) {surroundings : List Surround} {old : Json}
    (hkeys : (Json.fill surroundings old).KeysDistinct) :
    Framed o path slot (slot.read o path) surroundings := by
  induction surroundings generalizing path slot with
  | nil =>
      refine ⟨.empty, slot, .nil, ?_, fun j => ?_⟩
      · rwa [Path.into_nil]
      · rw [Path.into_nil, Frame.close_empty]
        rfl
  | cons s surroundings ih =>
      obtain ⟨outer, middle, halong, hsound, hread⟩ := framed_slot ho hfunctions hslot hkeys
      obtain ⟨inner, innermost, halong', hsound', hread'⟩ :=
        ih hsound (Surround.keysDistinct_inside hkeys)
      refine ⟨outer.around inner, innermost, halong.append halong', ?_, fun j => ?_⟩
      · rwa [Path.into_cons]
      · rw [Frame.close_around, Path.into_cons, ← hread']
        exact hread _

end

end

/-- Another value in one place of a document, wherever it is, changes nothing around the place. What
is read around it makes a frame that fits the place, with what is found before and behind it; the
value is read by itself, as what is expected there, and put into the frame. A list or a map around
it has all the others, also where nothing comes of it. -/
theorem readRecord_fill {o : Options} (ho : o.BuiltIn)
    (hfunctions : ∀ key function read, (key, Handler.function function read) ∉ o.registry)
    {t : ObjectType} (ht : t ∈ Schema.allTypes) (path : Path) (surroundings : List Surround)
    {old : Json} (hkeys : (Json.fill surroundings old).KeysDistinct) :
    ∃ (frame : Frame) (slot : Slot),
      (Slot.shape (.required (.object t))).Along o surroundings frame.layers slot ∧ ∀ new,
        (readRecord o t path (Json.fill surroundings new)).1 =
          (frame.layers.foldr Layer.plug
            (slot.read o (path.into surroundings) new).value).bind Value.record? ∧
        (readRecord o t path (Json.fill surroundings new)).2 =
          frame.before ++
            (slot.read o (path.into surroundings) new).findings.map (·.behind frame.scope) ++
            frame.after := by
  have hslot : (Slot.shape (.required (.object t))).Sound path :=
    ⟨Schema.isPlain_of_mem t ht, Schema.isRegular_of_mem t ht⟩
  obtain ⟨frame, slot, halong, -, hread⟩ := framed ho hfunctions hslot hkeys
  refine ⟨frame, slot, halong, fun new => ?_⟩
  have hform : readForm o path (.object t) (Json.fill surroundings new) =
      frame.close (slot.read o (path.into surroundings) new) := hread new
  rw [readRecord, hform]
  exact ⟨rfl, rfl⟩

/-- A node of a scene is another one, or text, or an object: the others stay. -/
theorem readRecord_fill_node :
    let surroundings : List Surround := [.member [("more", .null)] "nodes" [("extras", .bool true)],
      .item [.number (.int 3)] [.number (.int 5)]]
    Options.BuiltIn {} ∧ (∀ key function read, (key, .function function read) ∉ Registry.default) ∧
      Schema.scene ∈ Schema.allTypes ∧ (Json.fill surroundings .null).KeysDistinct ∧
      ((readRecord {} Schema.scene ⟨"", []⟩ (Json.fill surroundings (.number (.int 4)))).1.map
          Record.fields = some [("nodes", .list [.ofInt 3, .ofInt 4, .ofInt 5]), ("name", .null)] ∧
        (readRecord {} Schema.scene ⟨"", []⟩ (Json.fill surroundings (.string "4"))).1.map
          Record.fields = some [("nodes", .list [.ofInt 3, .ofInt 5]), ("name", .null)]) ∧
      ∃ (frame : Frame) (slot : Slot),
        (Slot.shape (.required (.object Schema.scene))).Along {} surroundings frame.layers slot ∧
          ∀ new,
            (readRecord {} Schema.scene ⟨"", []⟩ (Json.fill surroundings new)).1 =
              (frame.layers.foldr Layer.plug (slot.read {}
                (Path.into ⟨"", []⟩ surroundings) new).value).bind Value.record? ∧
            (readRecord {} Schema.scene ⟨"", []⟩ (Json.fill surroundings new)).2 =
              frame.before ++ (slot.read {} (Path.into ⟨"", []⟩ surroundings) new).findings.map
                (·.behind frame.scope) ++ frame.after := by
  intro surroundings
  have hfunctions (key : String × String) (function : String)
      (read : List (String × Json) → Except String Reported) :
      (key, .function function read) ∉ Registry.default := by
    simp [Registry.default]
  have hscene : Schema.scene ∈ Schema.allTypes := by
    simp [Schema.allTypes, Schema.coreTypes]
  have hkeys : (Json.fill surroundings .null).KeysDistinct := by
    simp [surroundings, Json.fill, Surround.fill]
  exact ⟨Options.builtIn_default, hfunctions, hscene, hkeys, ⟨rfl, rfl⟩,
    readRecord_fill Options.builtIn_default hfunctions hscene ⟨"", []⟩ surroundings hkeys⟩

end Gltf.Reading
