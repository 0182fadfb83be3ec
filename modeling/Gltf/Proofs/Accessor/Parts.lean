import Gltf.Proofs.Accessor.Extent
import Mathlib

/-!
The two parts of an accessor, the base elements and the sparse replacements, each with all the checks
that it has passed. Reading an accessor succeeds exactly if both parts are there.
-/

namespace Gltf

theorem bind_eq_ok_iff {ε α β : Type} {x : Except ε α} {f : α → Except ε β} {b : β} :
    x >>= f = .ok b ↔ ∃ a, x = .ok a ∧ f a = .ok b := by
  cases x with
  | error e => simp [bind, Except.bind]
  | ok a => simp [bind, Except.bind]

theorem mapError_eq_ok_iff {ε ε' α : Type} {x : Except ε α} {f : ε → ε'} {a : α} :
    x.mapError f = .ok a ↔ x = .ok a := by
  cases x with
  | error e => simp [Except.mapError]
  | ok a => simp [Except.mapError]

theorem bind_eq_error_iff {ε α β : Type} {x : Except ε α} {f : α → Except ε β} {e : ε} :
    x >>= f = .error e ↔ x = .error e ∨ ∃ a, x = .ok a ∧ f a = .error e := by
  cases x with
  | error e' => simp [bind, Except.bind]
  | ok a => simp [bind, Except.bind]

theorem mapError_eq_error_iff {ε ε' α : Type} {x : Except ε α} {f : ε → ε'} {e' : ε'} :
    x.mapError f = .error e' ↔ ∃ e, x = .error e ∧ f e = e' := by
  cases x with
  | error e => simp [Except.mapError]
  | ok a => simp [Except.mapError]

theorem exists_error_iff {ε α : Type} {x : Except ε α} : (∃ e, x = .error e) ↔ ¬∃ a, x = .ok a := by
  cases x with
  | error e => simp
  | ok a => simp

/-- The bytes of an element. -/
def Accessor.elementSize (a : Accessor) : Nat := a.type.elementSize a.componentType

theorem Accessor.elementSize_pos (a : Accessor) : 0 < a.elementSize :=
  calc
    0 < a.componentType.size := a.componentType.size_pos
    _ ≤ a.type.span a.componentType.size := a.type.size_le_span _
    _ ≤ a.elementSize := a.type.span_le_elementSize a.componentType

/-- The elements of an accessor that begin `stride` bytes apart. -/
def Accessor.elementsFrom (a : Accessor) (bs : Bytes) (start count : Int) (stride : Nat) :
    List Element :=
  (List.range count.toNat).map fun i =>
    elementFrom bs a.type a.componentType (start.toNat + i * stride)

/-- The elements of an accessor without its sparse part: zeros, or what its buffer view holds. -/
inductive Accessor.HasBase (d : Document) (a : Accessor) : List Element → Prop
  | zeros (absent : a.bufferView = none) (count : 0 ≤ a.count)
      (size : a.count * a.type.components * a.componentType.size < 0x8000000000000000) :
      a.HasBase d
        (List.replicate a.count.toNat (List.replicate a.type.components a.componentType.zero))
  | stored {index : Int} {e : Extent} (present : a.bufferView = some index)
      (resolved : resolve d index a.byteOffset = .ok e)
      (stride : a.elementSize ≤ strideOf a.elementSize e.stride)
      (room : a.count = 0 ∨
        strideOf a.elementSize e.stride * (a.count - 1) + a.elementSize ≤ e.available ∧
          Gatherable e.data e.start a.count (strideOf a.elementSize e.stride).toNat a.type
            a.componentType) :
      a.HasBase d
        (a.elementsFrom e.data e.start a.count (strideOf a.elementSize e.stride).toNat)

theorem baseElements_eq_ok_iff {d : Document} {a : Accessor} {elements : List Element} :
    baseElements d a = .ok elements ↔ a.HasBase d elements := by
  rw [baseElements]
  cases hview : a.bufferView with
  | none =>
      simp only [mapError_eq_ok_iff, zeroElements_eq_ok_iff]
      constructor
      · rintro ⟨hcount, hsize, rfl⟩
        exact .zeros hview hcount hsize
      · rintro (⟨absent, hcount, hsize⟩ | ⟨present, -, -, -⟩)
        · exact ⟨hcount, hsize, rfl⟩
        · simp [hview] at present
  | some index =>
      simp only [bind_eq_ok_iff, mapError_eq_ok_iff]
      constructor
      · rintro ⟨e, hresolved, h⟩
        split_ifs at h with hstride hroom
        rw [mapError_eq_ok_iff, gather_eq_ok_iff] at h
        obtain ⟨hcount, rfl⟩ := h
        refine .stored hview hresolved (not_lt.1 hstride) (hcount.imp_right fun hg => ⟨?_, hg⟩)
        have := hg.count_pos
        simp only [Accessor.elementSize]
        omega
      · rintro (⟨absent, -, -⟩ | ⟨present, hresolved, hstride, hroom⟩)
        · simp [hview] at absent
        · rw [hview, Option.some.injEq] at present
          subst present
          refine ⟨_, hresolved, ?_⟩
          rw [Accessor.elementSize] at hstride hroom
          rw [if_neg (by omega), if_neg (by omega), mapError_eq_ok_iff, gather_eq_ok_iff]
          exact ⟨hroom.imp_right And.right, rfl⟩

/-- The places of a sparse part and the elements to put there. -/
inductive Sparse.HasReplacements (d : Document) (a : Accessor) (s : Sparse) :
    List Nat → List Element → Prop
  | mk {t : ComponentType} {indices values : Extent}
      (type : s.indices.componentType = some t) (isIndex : t.isIndex = true)
      (resolvedIndices : resolve d s.indices.bufferView s.indices.byteOffset = .ok indices)
      (resolvedValues : resolve d s.values.bufferView s.values.byteOffset = .ok values)
      (count : 0 ≤ s.count) (indexRoom : s.count * t.size ≤ indices.available)
      (valueRoom : s.count * a.elementSize ≤ values.available)
      (start : 0 ≤ indices.start ∧ indices.start + s.count * t.size ≤ indices.data.length)
      (words : Bytes.isWord indices.start ∧ Bytes.isWord s.count)
      (inside : ∀ i ∈ indicesFrom indices.data t indices.start.toNat s.count.toNat, i < a.count)
      (gatherable : s.count = 0 ∨
        Gatherable values.data values.start s.count a.elementSize a.type a.componentType) :
      s.HasReplacements d a (indicesFrom indices.data t indices.start.toNat s.count.toNat)
        (a.elementsFrom values.data values.start s.count a.elementSize)

@[simp] theorem length_indicesFrom (bs : Bytes) (c : ComponentType) (place count : Nat) :
    (indicesFrom bs c place count).length = count := by
  rw [indicesFrom, List.length_map, List.length_range]

/-- Replacements are only gathered for a count that is not negative, whatever the indices are. -/
theorem applySparse_eq_ok_iff {d : Document} {a : Accessor} {s : Sparse}
    {elements patched : List Element} :
    applySparse d a s elements = .ok patched ↔ ∃ targets replacements,
      s.HasReplacements d a targets replacements ∧
        patched = scatter elements targets replacements := by
  rw [applySparse]
  constructor
  · intro h
    split at h
    · cases h
    · rename_i t ht
      obtain ⟨htype, hindex⟩ := Option.filter_eq_some_iff.1 ht
      simp only [bind_eq_ok_iff, mapError_eq_ok_iff] at h
      obtain ⟨indices, hindices, values, hvalues, h⟩ := h
      split_ifs at h with hroom
      obtain ⟨targets, htargets, h⟩ := bind_eq_ok_iff.1 h
      split_ifs at h with hempty hinside
      simp only [bind_eq_ok_iff, mapError_eq_ok_iff, gather_eq_ok_iff] at h htargets
      obtain ⟨replacements, ⟨hgather, rfl⟩, hpatched⟩ := h
      cases hpatched
      have hcount : 0 ≤ s.count := by
        rcases hgather with hzero | hg
        · omega
        · exact hg.count_pos.le
      obtain ⟨⟨hstart, hend, hwords⟩, rfl⟩ := (sparseIndices_eq_ok_iff hcount).1 htargets
      refine ⟨_, _, .mk htype hindex hindices hvalues hcount ?_ ?_ ⟨hstart, hend⟩ hwords ?_ hgather,
        rfl⟩
      · omega
      · simp only [Accessor.elementSize]
        omega
      · simpa using hinside
  · rintro ⟨targets, replacements, ⟨htype, hindex, hindices, hvalues, hcount, hroom, hroom', hstart,
      hwords, hinside, hgather⟩, rfl⟩
    rename_i t indices values
    have hfilter : s.indices.componentType.filter ComponentType.isIndex = some t :=
      Option.filter_eq_some_iff.2 ⟨htype, hindex⟩
    have htargets := (sparseIndices_eq_ok_iff hcount).2 ⟨⟨hstart.1, hstart.2, hwords⟩, rfl⟩
    simp only [hfilter, bind_eq_ok_iff, mapError_eq_ok_iff]
    refine ⟨indices, hindices, values, hvalues, ?_⟩
    rw [Accessor.elementSize] at hroom'
    rw [if_neg (by omega)]
    refine bind_eq_ok_iff.2 ⟨_, mapError_eq_ok_iff.2 htargets, ?_⟩
    rw [if_neg, if_neg (by simpa using hinside)]
    · exact bind_eq_ok_iff.2 ⟨_, mapError_eq_ok_iff.2 (gather_eq_ok_iff.2 ⟨hgather, rfl⟩), rfl⟩
    · rintro ⟨hne, hempty⟩
      have := congrArg List.length hempty
      simp at this
      omega

/-- The elements of an accessor before they are normalized. -/
inductive Accessor.HasElements (d : Document) (a : Accessor) : List Element → Prop
  | base {elements : List Element} (dense : a.sparse = none) (base : a.HasBase d elements) :
      a.HasElements d elements
  | patched {s : Sparse} {elements replacements : List Element} {targets : List Nat}
      (sparse : a.sparse = some s) (base : a.HasBase d elements)
      (stored : s.HasReplacements d a targets replacements) :
      a.HasElements d (scatter elements targets replacements)

/-- The elements as they are shown. -/
def Accessor.shown (a : Accessor) (elements : List Element) : List Element :=
  match a.divisor? with
  | some divisor => elements.map (·.map (normalize divisor))
  | none => elements

theorem elementsOf_eq_ok_iff {d : Document} {a : Accessor} {elements : List Element} :
    elementsOf d a = .ok elements ↔ ∃ plain, a.HasElements d plain ∧ elements = a.shown plain := by
  rw [elementsOf]
  constructor
  · intro h
    obtain ⟨base, hbase, h⟩ := bind_eq_ok_iff.1 h
    rw [baseElements_eq_ok_iff] at hbase
    cases hs : a.sparse with
    | none =>
        refine ⟨base, .base hs hbase, ?_⟩
        rw [Accessor.shown]
        cases hdivisor : a.divisor? <;> simp_all [bind, Except.bind]
    | some s =>
        simp only [hs, bind_eq_ok_iff, applySparse_eq_ok_iff] at h
        obtain ⟨plain, ⟨targets, replacements, hstored, rfl⟩, h⟩ := h
        refine ⟨_, .patched hs hbase hstored, ?_⟩
        rw [Accessor.shown]
        cases hdivisor : a.divisor? <;> simp_all
  · rintro ⟨plain, hplain, rfl⟩
    rw [Accessor.shown]
    cases hplain with
    | base dense base =>
        refine bind_eq_ok_iff.2 ⟨plain, baseElements_eq_ok_iff.2 base, ?_⟩
        rw [dense]
        cases a.divisor? <;> rfl
    | patched sparse base stored =>
        refine bind_eq_ok_iff.2 ⟨_, baseElements_eq_ok_iff.2 base, ?_⟩
        rw [sparse]
        refine bind_eq_ok_iff.2 ⟨_, applySparse_eq_ok_iff.2 ⟨_, _, stored, rfl⟩, ?_⟩
        cases a.divisor? <;> rfl

/-! ### Views without a failure -/

theorem resolve_ne_valid (d : Document) (index offset : Int) :
    resolve d index offset ≠ .error .valid := by
  intro h
  rw [resolve] at h
  split at h
  · cases h
  · split at h
    · cases h
    · split at h
      · cases h
      · split_ifs at h <;> cases h

theorem baseElements_ne_valid (d : Document) (a : Accessor) :
    baseElements d a ≠ .error (.status .valid) := by
  rw [baseElements]
  intro h
  split at h
  · simp [mapError_eq_error_iff] at h
  · rcases bind_eq_error_iff.1 h with h | ⟨e, -, h⟩
    · simp [mapError_eq_error_iff, resolve_ne_valid] at h
    · dsimp only at h
      split_ifs at h with hstride hroom
      · cases h
      · cases h
      · simp [mapError_eq_error_iff] at h

theorem applySparse_ne_valid (d : Document) (a : Accessor) (s : Sparse) (elements : List Element) :
    applySparse d a s elements ≠ .error (.status .valid) := by
  rw [applySparse]
  intro h
  split at h
  · cases h
  · simp only [bind_eq_error_iff, mapError_eq_error_iff, ViewFailure.status.injEq, exists_eq_right,
      resolve_ne_valid, false_or] at h
    obtain ⟨indices, -, values, -, h⟩ := h
    split_ifs at h with hroom
    · cases h
    · rcases bind_eq_error_iff.1 h with h | ⟨targets, -, h⟩
      · simp [mapError_eq_error_iff] at h
      · split_ifs at h with hempty hinside
        · cases h
        · cases h
        · simp [bind_eq_error_iff, mapError_eq_error_iff] at h

theorem elementsOf_ne_valid (d : Document) (a : Accessor) :
    elementsOf d a ≠ .error (.status .valid) := by
  rw [elementsOf]
  intro h
  rcases bind_eq_error_iff.1 h with h | ⟨base, -, h⟩
  · exact baseElements_ne_valid d a h
  · cases hs : a.sparse with
    | none => cases hdivisor : a.divisor? <;> simp [hs, hdivisor, bind, Except.bind] at h
    | some s =>
        rw [hs] at h
        rcases bind_eq_error_iff.1 h with h | ⟨plain, -, h⟩
        · exact applySparse_ne_valid d a s base h
        · cases hdivisor : a.divisor? <;> simp [hdivisor] at h

/-- A view is valid exactly if both parts of its accessor are there. -/
theorem AccessorView.ofDocument_eq_valid_iff {d : Document} {index : Int} {a : Accessor}
    {v : AccessorView} (accessor : elementAt? d.accessors index = some a) :
    AccessorView.ofDocument d index = .ok v ∧ v.status = .valid ↔
      ∃ plain, a.HasElements d plain ∧ v = ⟨.valid, some a, a.shown plain⟩ := by
  rw [AccessorView.ofDocument, accessor]
  dsimp only
  constructor
  · rintro ⟨h, hvalid⟩
    split at h
    · rename_i elements helements
      cases h
      obtain ⟨plain, hplain, rfl⟩ := elementsOf_eq_ok_iff.1 helements
      exact ⟨plain, hplain, rfl⟩
    · rename_i status hstatus
      cases h
      dsimp only at hvalid
      subst hvalid
      exact absurd hstatus (elementsOf_ne_valid d a)
    · cases h
  · rintro ⟨plain, hplain, rfl⟩
    rw [elementsOf_eq_ok_iff.2 ⟨plain, hplain, rfl⟩]
    exact ⟨rfl, rfl⟩

end Gltf
