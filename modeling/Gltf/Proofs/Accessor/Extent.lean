import Gltf.Accessor.View
import Gltf.Proofs.Accessor.Layout
import Mathlib

/-!
What reading from a buffer view gives, and when it gives anything: a resolved view is a view of the
document over a buffer with content, and elements gathered from bytes are those at their places, the
whole of which lies in the buffer.
-/

namespace Gltf

theorem elementAt?_natCast {α : Type} (elements : List α) (i : Nat) :
    elementAt? elements i = elements[i]? := by
  simp [elementAt?]

theorem elementAt?_eq_some {α : Type} {elements : List α} {index : Int} {element : α}
    (h : elementAt? elements index = some element) :
    ∃ i : Nat, index = i ∧ elements[i]? = some element := by
  rw [elementAt?] at h
  split_ifs at h with hneg
  exact ⟨index.toNat, by omega, h⟩

/-! ### Buffer views -/

/-- The buffer view at an index, and the content of the buffer that it is a view of. -/
structure Document.HasView (d : Document) (index : Int) (view : BufferView) (data : Bytes) :
    Prop where
  found : elementAt? d.bufferViews index = some view
  content : ∃ buffer, elementAt? d.buffers view.buffer = some buffer ∧ buffer.data = some data

theorem Document.HasView.unique {d : Document} {index : Int} {view view' : BufferView}
    {data data' : Bytes} (h : d.HasView index view data) (h' : d.HasView index view' data') :
    view' = view ∧ data' = data := by
  obtain ⟨hview, buffer, hbuffer, hdata⟩ := h
  obtain ⟨hview', buffer', hbuffer', hdata'⟩ := h'
  rw [hview, Option.some.injEq] at hview'
  subst hview'
  rw [hbuffer, Option.some.injEq] at hbuffer'
  subst hbuffer'
  rw [hdata, Option.some.injEq] at hdata'
  exact ⟨rfl, hdata'.symm⟩

/-- What an accessor reads of a view from an offset on, if the view lies in its buffer and the
offset in the view as far as the ends go; nothing is said of the begins. -/
def Extent.ofView (view : BufferView) (data : Bytes) (offset : Int) : Extent :=
  ⟨data, view.byteOffset + offset, view.byteLength - offset, view.byteStride⟩

theorem resolve_eq_ok_iff {d : Document} {index offset : Int} {e : Extent} :
    resolve d index offset = .ok e ↔ ∃ view data, d.HasView index view data ∧
      view.byteOffset + view.byteLength ≤ data.length ∧ offset ≤ view.byteLength ∧
      e = .ofView view data offset := by
  constructor
  · intro h
    rw [resolve] at h
    split at h
    · cases h
    · rename_i view hview
      split at h
      · cases h
      · rename_i buffer hbuffer
        split at h
        · cases h
        · rename_i data hdata
          split_ifs at h with hend hoffset
          cases h
          exact ⟨view, data, ⟨hview, buffer, hbuffer, hdata⟩, not_lt.1 hend, not_lt.1 hoffset, rfl⟩
  · rintro ⟨view, data, ⟨hview, buffer, hbuffer, hdata⟩, hend, hoffset, rfl⟩
    simp only [resolve, hview, hbuffer, hdata]
    rw [if_neg (not_lt.2 hend), if_neg (not_lt.2 hoffset)]
    rfl

/-! ### Elements in bytes -/

theorem componentAt_drop (bs : Bytes) (c : ComponentType) (n place : Nat) :
    componentAt (bs.drop n) c place = componentAt bs c (n + place) := by
  rw [componentAt, componentAt, List.drop_drop]

/-- The element whose first component begins at a place. -/
def elementFrom (bs : Bytes) (t : AccessorType) (c : ComponentType) (place : Nat) : Element :=
  (List.range t.components).map fun k => componentAt bs c (place + t.componentOffset c.size k)

@[simp] theorem length_elementFrom (bs : Bytes) (t : AccessorType) (c : ComponentType)
    (place : Nat) : (elementFrom bs t c place).length = t.components := by
  rw [elementFrom, List.length_map, List.length_range]

theorem elementsAt_eq_map (stride : Nat) (t : AccessorType) (c : ComponentType) (count : Nat)
    (bs : Bytes) : elementsAt stride (t.offsets c.size) c count bs =
      (List.range count).map fun i => elementFrom bs t c (i * stride) := by
  induction count generalizing bs with
  | zero => rfl
  | succ count ih =>
      rw [elementsAt, ih, List.range_succ_eq_map, List.map_cons, List.map_map,
        AccessorType.offsets_eq_map, List.map_map]
      congr 1
      · simp [elementFrom, Function.comp_def]
      · apply List.map_congr_left
        intro i _
        simp only [elementFrom, Function.comp_apply, componentAt_drop, Nat.succ_mul,
          Nat.add_comm stride, Nat.add_assoc]

/-- The bytes from the begin of the first of some elements to the end of the last. -/
def gatherLength (t : AccessorType) (c : ComponentType) (count : Int) (stride : Nat) : Int :=
  (count - 1) * stride + t.span c.size

/-- Elements that can be gathered: there are some, and all of them lie in the bytes. -/
structure Gatherable (bs : Bytes) (start count : Int) (stride : Nat) (t : AccessorType)
    (c : ComponentType) : Prop where
  count_pos : 0 < count
  start_nonneg : 0 ≤ start
  inside : start + gatherLength t c count stride ≤ bs.length
  words : Bytes.isWord start ∧ Bytes.isWord (gatherLength t c count stride) ∧ Bytes.isWord count

theorem gather_eq_ok_iff {bs : Bytes} {start count : Int} {stride : Nat} {t : AccessorType}
    {c : ComponentType} {elements : List Element} :
    gather bs start count stride (t.offsets c.size) c = .ok elements ↔
      (count = 0 ∨ Gatherable bs start count stride t c) ∧
      elements = (List.range count.toNat).map fun i =>
        elementFrom bs t c (start.toNat + i * stride) := by
  have helements : elementsAt stride (t.offsets c.size) c count.toNat (bs.drop start.toNat) =
      (List.range count.toNat).map fun i => elementFrom bs t c (start.toNat + i * stride) := by
    rw [elementsAt_eq_map]
    simp only [elementFrom, componentAt_drop, Nat.add_assoc]
  have hlength : (count - 1) * stride +
      (((t.offsets c.size).getLast?.getD 0 + c.size : Nat) : Int) =
      gatherLength t c count stride := rfl
  rw [gather, hlength, helements]
  constructor
  · intro h
    split_ifs at h with hzero hwords hcount hout
    · subst hzero
      cases h
      exact ⟨.inl rfl, rfl⟩
    · cases h
      simp only [Bool.not_eq_true', Bool.not_eq_false, Bool.and_eq_true] at hwords
      exact ⟨.inr ⟨by omega, by omega, by omega, hwords.1.1, hwords.1.2, hwords.2⟩, rfl⟩
  · rintro ⟨rfl | ⟨hcount, hstart, hinside, hwords⟩, rfl⟩
    · rfl
    · rw [if_neg (by omega), if_neg (by simp [hwords]), if_neg (by omega), if_neg (by omega)]

theorem zeroElements_eq_ok_iff {t : AccessorType} {c : ComponentType} {count : Int}
    {elements : List Element} :
    zeroElements (t.offsets c.size) c count = .ok elements ↔
      0 ≤ count ∧ count * t.components * c.size < 0x8000000000000000 ∧
      elements = List.replicate count.toNat (List.replicate t.components c.zero) := by
  have hzeros : (t.offsets c.size).map (fun _ => c.zero) = List.replicate t.components c.zero := by
    rw [List.map_const', AccessorType.length_offsets]
  rw [zeroElements, hzeros, AccessorType.length_offsets]
  split_ifs with hcount hsize
  · simp only [false_iff]
    omega
  · simp only [false_iff]
    omega
  · rw [Except.ok.injEq, eq_comm]
    exact ⟨fun h => ⟨by omega, by omega, h⟩, fun h => h.2.2⟩

/-- The indices that lie one behind the other from a place on. -/
def indicesFrom (bs : Bytes) (c : ComponentType) (place count : Nat) : List Nat :=
  (List.range count).map fun k => Bytes.natAt bs (place + k * c.size) c.size

theorem sparseIndices_eq_ok_iff {bs : Bytes} {start count : Int} {c : ComponentType}
    {targets : List Nat} (hcount : 0 ≤ count) :
    sparseIndices bs start count c = .ok targets ↔
      (0 ≤ start ∧ start + count * c.size ≤ bs.length ∧ Bytes.isWord start ∧ Bytes.isWord count) ∧
      targets = indicesFrom bs c start.toNat count.toNat := by
  have hsize : 0 ≤ count * c.size := by positivity
  rw [sparseIndices]
  dsimp only
  rw [if_neg (by omega : ¬(count < 0 ∧ (bs.length - start.toNat) % c.size ≠ 0)),
    if_neg (by omega : ¬count < 0)]
  split_ifs with hwords hstart hrest
  · simp only [Bool.not_eq_true', Bool.and_eq_false_iff] at hwords
    simp only [false_iff]
    rintro ⟨⟨-, -, hs, hc⟩, -⟩
    simp [hs, hc] at hwords
  · simp only [false_iff]
    omega
  · simp only [false_iff]
    omega
  · simp only [Bool.not_eq_true', Bool.not_eq_false, Bool.and_eq_true] at hwords
    rw [Except.ok.injEq, eq_comm]
    exact ⟨fun h => ⟨⟨by omega, by omega, hwords⟩, h⟩, fun h => h.2⟩

end Gltf
