import Gltf.Proofs.Json.Parsed
import Gltf.Proofs.Reading.Entries
import Gltf.Proofs.Resource.Outcome
import Gltf.Proofs.Resource.ViewBytes
import Gltf.Proofs.Schema.Regular
import Mathlib

/-!
Which entries of the root object the indices of a document stand for. Indices are looked up in the
lists of the document, and an entry that is no object is left out of them. So an index stands for the
entry at its place among the entries that are objects, at every look-up of a read. What is decoded
from compressed primitives comes behind all of them.
-/

namespace Gltf

open Reading (ReadAt entriesOf kept)

/-! ### Collections -/

/-- A list of objects of the root object, which indices refer to. -/
structure Collection where
  key : String
  field : String
  type : ObjectType
  Element : Type
  ofRecord : Record → Element
  elements : Document → List Element
  /-- What may become of an element when resources are brought in. -/
  Gains : Element → Element → Prop
  /-- What may be appended when compressed primitives are decoded. -/
  Appended : Element → Prop
  listed : Schema.listOf key field (.object type) ∈ Schema.root.properties
  elements_ofRecord : ∀ r, elements (.ofRecord r) = (r.recordsField field).map ofRecord
  attached : ∀ {d d'}, d.Attached d' →
    ∃ own more, elements d' = own ++ more ∧ List.Forall₂ Gains (elements d) own ∧
      ∀ e ∈ more, Appended e

namespace Collection

def accessors : Collection where
  key := "accessors"
  field := "accessors"
  type := Schema.accessor
  Element := Accessor
  ofRecord := Accessor.ofRecord
  elements := Document.accessors
  Gains := Accessor.Redirected
  Appended _ := False
  listed := List.mem_of_getElem? (i := 2) rfl
  elements_ofRecord _ := rfl
  attached h := ⟨_, [], (List.append_nil _).symm, h.accessors, List.forall_mem_nil _⟩

def buffers : Collection where
  key := "buffers"
  field := "buffers"
  type := Schema.buffer
  Element := Buffer
  ofRecord := Buffer.ofRecord
  elements := Document.buffers
  Gains := Buffer.Gains
  Appended := Buffer.Filled
  listed := List.mem_of_getElem? (i := 5) rfl
  elements_ofRecord _ := rfl
  attached h := h.buffers

def bufferViews : Collection where
  key := "bufferViews"
  field := "buffer_views"
  type := Schema.bufferView
  Element := BufferView
  ofRecord := BufferView.ofRecord
  elements := Document.bufferViews
  Gains := Eq
  Appended _ := True
  listed := List.mem_of_getElem? (i := 6) rfl
  elements_ofRecord _ := rfl
  attached h := by
    obtain ⟨more, hmore⟩ := h.bufferViews
    exact ⟨_, more, hmore.symm, List.forall₂_same.2 fun _ _ => rfl, fun _ _ => trivial⟩

def images : Collection where
  key := "images"
  field := "images"
  type := Schema.image
  Element := ImageSource
  ofRecord := ImageSource.ofRecord
  elements := Document.images
  Gains := ImageSource.Gains
  Appended _ := False
  listed := List.mem_of_getElem? (i := 8) rfl
  elements_ofRecord _ := rfl
  attached h := ⟨_, [], (List.append_nil _).symm, h.images, List.forall_mem_nil _⟩

def meshes : Collection where
  key := "meshes"
  field := "meshes"
  type := Schema.mesh
  Element := Mesh
  ofRecord := Mesh.ofRecord
  elements := Document.meshes
  Gains := Eq
  Appended _ := False
  listed := List.mem_of_getElem? (i := 10) rfl
  elements_ofRecord _ := rfl
  attached h := by
    refine ⟨_, [], (List.append_nil _).symm, ?_, List.forall_mem_nil _⟩
    rw [h.rest]
    exact List.forall₂_same.2 fun _ _ => rfl

variable (C : Collection)

/-- The entries that the root object has for a collection. -/
def entries (members : List (String × Json)) : List Json := entriesOf members C.key

/-- An element that was read from the entry at a place, whatever it has gained since. -/
def StemsFrom (o : Options) (members : List (String × Json)) (i : ℕ) (e : C.Element) : Prop :=
  ∃ r, ReadAt o C.type (Path.key ⟨"", []⟩ C.key) (C.entries members) i r ∧ C.Gains (C.ofRecord r) e

/-- An element that an index stands for: it was read from the entry at that place among those that
are kept. -/
def Names (o : Options) (members : List (String × Json)) (k : ℕ) (e : C.Element) : Prop :=
  ∃ i, (kept (C.entries members))[k]? = some i ∧ C.StemsFrom o members i e

/-- What a look-up may come to: the element that the index stands for, or one that was appended, if
the index is past all entries that are kept. -/
def Finds (o : Options) (members : List (String × Json)) (index : Int) (e : C.Element) : Prop :=
  (∃ k : ℕ, index = k ∧ C.Names o members k e) ∨
    ((kept (C.entries members)).length : Int) ≤ index ∧ C.Appended e

end Collection

/-- Look-ups of a document that stick to the entries that are kept. -/
structure Document.Indexed (o : Options) (members : List (String × Json)) (d : Document) : Prop where
  present (C : Collection) {k : ℕ} : k < (kept (C.entries members)).length →
    ∃ e, (C.elements d)[k]? = some e ∧ C.Names o members k e
  element (C : Collection) {index : Int} {e : C.Element} :
    elementAt? (C.elements d) index = some e → C.Finds o members index e
  viewBytes {index : Int} {bs : Bytes} : d.viewBytes index = .ok bs →
    ∃ view b data, Collection.bufferViews.Finds o members index view ∧
      Collection.buffers.Finds o members view.buffer b ∧ b.data = some data ∧
      bs = Bytes.slice data view.byteOffset (view.byteOffset + view.byteLength)
  extent {index offset : Int} {e : Extent} : resolve d index offset = .ok e →
    ∃ view b data, Collection.bufferViews.Finds o members index view ∧
      Collection.buffers.Finds o members view.buffer b ∧ b.data = some data ∧
      e = .ofView view data offset
  source {c : Meshopt.Compression} {bs : Bytes} : Meshopt.source? d.buffers c = some bs →
    ∃ b data, Collection.buffers.Finds o members c.buffer b ∧ b.data = some data ∧
      bs = Bytes.slice data c.byteOffset (c.byteOffset + c.byteLength)

/-! ### Documents of a read -/

section
variable {σ : Type}

/-- The documents that indices are looked up in during a read: those between the stages, and those on
the way through compressed views and through compressed primitives and the accessors they fill. -/
inductive Reached (c : Collaborators (StateM σ)) (ro : ReadOptions) (chunk : Option Bytes)
    (d : Document) (s : σ) : Document → Prop
  | between {n : ℕ} {found : List (List Diagnostic)} {d' : Document} {s' : σ}
      (h : Passes ((stages c ro chunk).take n) d s found d' s') : Reached c ro chunk d s d'
  | views {found : List (List Diagnostic)} {d' : Document} {s' : σ} (n : ℕ)
      (h : Passes ((stages c ro chunk).take 2) d s found d' s') :
      Reached c ro chunk d s
        { d' with
          buffers := ((Meshopt.decodeViews c.meshopt 0 { buffers := d'.buffers }
            (d'.bufferViews.take n)).run s').1.buffers }
  | primitives {found : List (List Diagnostic)} {d' : Document} {s' : σ} (n : ℕ)
      (targets : List Draco.Target) (h : Passes ((stages c ro chunk).take 3) d s found d' s') :
      Reached c ro chunk d s
        (Draco.fillAll ((Draco.decodePrimitives c.draco ⟨d', 0, []⟩
          ((Draco.located d'.meshes).take n)).run s').1.document targets).1

variable {c : Collaborators (StateM σ)} {ro : ReadOptions} {chunk : Option Bytes}
  {d d' : Document} {s s' : σ} {found : List (List Diagnostic)}

theorem Document.refilled_of_allGain {buffers : List Buffer} (h : AllGain d.buffers buffers) :
    d.Refilled { d with buffers } := ⟨rfl, h⟩

theorem Document.Refilled.attached (h : d.Refilled d') : d.Attached d' :=
  .of_stages h (.refl d') (.refl d')

theorem Passes.refilled_take_two (h : Passes ((stages c ro chunk).take 2) d s found d' s') :
    d.Refilled d' := by
  obtain _ | ⟨hbinding, _ | ⟨hresolving, ⟨⟩⟩⟩ := h
  exact (Stage.refilled_binding hbinding).trans (Stage.refilled_resolving hresolving)

theorem Passes.refilled_take_three (h : Passes ((stages c ro chunk).take 3) d s found d' s') :
    d.Refilled d' := by
  obtain _ | ⟨hbinding, _ | ⟨hresolving, _ | ⟨hviews, ⟨⟩⟩⟩⟩ := h
  exact ((Stage.refilled_binding hbinding).trans (Stage.refilled_resolving hresolving)).trans
    (Stage.refilled_decodingViews hviews)

theorem Reached.attached (h : Reached c ro chunk d s d') : d.Attached d' := by
  cases h with
  | @between n found d' s' h =>
      by_cases hall : (stages c ro chunk).length ≤ n
      · rw [List.take_of_length_le hall] at h
        exact h.attached
      · replace hall : n < 5 := not_le.1 hall
        interval_cases n
        · cases h
          exact (Document.Refilled.refl d).attached
        · obtain _ | ⟨hbinding, ⟨⟩⟩ := h
          exact (Stage.refilled_binding hbinding).attached
        · exact h.refilled_take_two.attached
        · exact h.refilled_take_three.attached
        · obtain _ | ⟨hbinding, _ | ⟨hresolving, _ | ⟨hviews, _ | ⟨hprimitives, ⟨⟩⟩⟩⟩⟩ := h
          have hresolved := (Stage.refilled_binding hbinding).trans
            (Stage.refilled_resolving hresolving)
          exact .of_stages (hresolved.trans (Stage.refilled_decodingViews hviews))
            (Stage.appends_decodingPrimitives hprimitives) (.refl _)
  | @views found d' s' n h =>
      have hgain := Meshopt.gains_decodeViews c.meshopt 0 { buffers := d'.buffers }
        (d'.bufferViews.take n) s'
      exact (h.refilled_take_two.trans (Document.refilled_of_allGain hgain)).attached
  | @primitives found d' s' n targets h =>
      exact .of_stages h.refilled_take_three
        ((Draco.appends_decodePrimitives c.draco ⟨d', 0, []⟩ _ s').trans (Draco.appends_fillAll _ _))
        (.refl _)

end

/-! ### Indices -/

section
variable {o : Options} {members : List (String × Json)} {d : Document} {k i : ℕ}

theorem separate_root : Separate Schema.root.properties Schema.root.derived := by
  have hmem : Schema.root ∈ Schema.allTypes := by simp [Schema.allTypes, Schema.coreTypes]
  exact ((ObjectType.isRegular_iff _).1 (Schema.isRegular_of_mem _ hmem)).1

namespace Collection

variable {C : Collection}

/-- A collection is read from the entries that are kept. -/
theorem exists_records (C : Collection) (o : Options) (hkeys : (members.map (·.1)).Nodup) :
    ∃ rs, C.elements (Draft.ofMembers o members).document = rs.map C.ofRecord ∧
      List.Forall₂ (ReadAt o C.type (Path.key ⟨"", []⟩ C.key) (C.entries members))
        (kept (C.entries members)) rs := by
  obtain ⟨r, findings, root, -⟩ := Reading.exists_isInstance o Schema.root ⟨"", []⟩ members
  rw [ofMembers_eq root, C.elements_ofRecord]
  exact ⟨_, rfl, Reading.forall₂_recordsField separate_root hkeys C.listed root⟩

theorem length_elements (C : Collection) (o : Options) (hkeys : (members.map (·.1)).Nodup) :
    (C.elements (Draft.ofMembers o members).document).length =
      (kept (C.entries members)).length := by
  obtain ⟨rs, helements, hread⟩ := C.exists_records o hkeys
  rw [helements, List.length_map, hread.length_eq]

variable (hkeys : (members.map (·.1)).Nodup) (h : (Draft.ofMembers o members).document.Attached d)
include hkeys h

/-- What an index stands for is there, and all else has been appended. -/
theorem getElem?_elements (k : ℕ) :
    (∃ e, (C.elements d)[k]? = some e ∧ C.Names o members k e) ∨
      (kept (C.entries members)).length ≤ k ∧ ∀ e, (C.elements d)[k]? = some e → C.Appended e := by
  obtain ⟨rs, helements, hread⟩ := C.exists_records o hkeys
  obtain ⟨own, more, happend, hgain, hmore⟩ := C.attached h
  rw [helements, List.forall₂_map_left_iff] at hgain
  have hlength : own.length = (kept (C.entries members)).length := by
    rw [← hgain.length_eq, hread.length_eq]
  by_cases hk : k < (kept (C.entries members)).length
  · have hentry := List.getElem?_eq_getElem hk
    obtain ⟨r, hr, hat⟩ := exists_of_forall₂ hread hentry
    obtain ⟨e, he, hgains⟩ := exists_of_forall₂ hgain hr
    refine .inl ⟨e, ?_, _, hentry, r, hat, hgains⟩
    rw [happend, List.getElem?_append_left (hlength ▸ hk), he]
  · refine .inr ⟨not_lt.1 hk, fun e he => ?_⟩
    rw [happend, List.getElem?_append_right (hlength ▸ not_lt.1 hk)] at he
    exact hmore e (List.mem_of_getElem? he)

theorem exists_of_kept (hk : k < (kept (C.entries members)).length) :
    ∃ e, (C.elements d)[k]? = some e ∧ C.Names o members k e :=
  (getElem?_elements hkeys h k).resolve_right fun hpast => not_lt.2 hpast.1 hk

theorem finds_of_elementAt? {index : Int} {e : C.Element}
    (he : elementAt? (C.elements d) index = some e) : C.Finds o members index e := by
  obtain ⟨k, rfl, he⟩ := elementAt?_eq_some he
  rcases getElem?_elements (C := C) hkeys h k with ⟨e', he', hnames⟩ | ⟨hpast, happended⟩
  · obtain rfl : e = e' := Option.some.inj (he.symm.trans he')
    exact .inl ⟨k, rfl, hnames⟩
  · exact .inr ⟨Int.ofNat_le.2 hpast, happended e he⟩

/-- As long as nothing is appended, each element is one that its index stands for. -/
theorem names_of_getElem? {e : C.Element} (he : (C.elements d)[k]? = some e)
    (hlength : (C.elements d).length =
      (C.elements (Draft.ofMembers o members).document).length) : C.Names o members k e := by
  have hk := (List.getElem?_eq_some_iff.1 he).1
  rw [hlength, C.length_elements o hkeys] at hk
  obtain ⟨e', he', hnames⟩ := exists_of_kept (C := C) hkeys h hk
  rw [he, Option.some.injEq] at he'
  exact he' ▸ hnames

end Collection

theorem Document.indexed_of_attached (hkeys : (members.map (·.1)).Nodup)
    (h : (Draft.ofMembers o members).document.Attached d) : d.Indexed o members where
  present _ := Collection.exists_of_kept hkeys h
  element _ := Collection.finds_of_elementAt? hkeys h
  viewBytes hbytes := by
    obtain ⟨view, data, ⟨hview, b, hb, hdata⟩, -, rfl⟩ := viewBytes_eq_ok_iff.1 hbytes
    exact ⟨view, b, data, Collection.finds_of_elementAt? hkeys h hview,
      Collection.finds_of_elementAt? hkeys h hb, hdata, rfl⟩
  extent hresolved := by
    obtain ⟨view, data, ⟨hview, b, hb, hdata⟩, -, -, rfl⟩ := resolve_eq_ok_iff.1 hresolved
    exact ⟨view, b, data, Collection.finds_of_elementAt? hkeys h hview,
      Collection.finds_of_elementAt? hkeys h hb, hdata, rfl⟩
  source hsource := by
    obtain ⟨b, hb, hsource⟩ := Option.bind_eq_some_iff.1 hsource
    obtain ⟨data, hdata, hslice⟩ := Option.bind_eq_some_iff.1 hsource
    exact ⟨b, data, Collection.finds_of_elementAt? hkeys h hb, hdata, (Option.some.inj hslice).symm⟩

end

end Gltf
