import Gltf.Proofs.Accessor.Parts
import Gltf.Proofs.Resource.Returns
import Mathlib

/-!
When a view is made at all. The checks stop everything but negative counts, begins in front of a
buffer and more zeros than can be counted; these run into a fault, unless an earlier check stops the
view with a status.
-/

namespace Gltf

/-- No buffer holds more bytes than eight bytes can count. -/
def Document.Addressable (d : Document) : Prop :=
  ∀ buffer ∈ d.buffers, ∀ data, buffer.data = some data → data.length < 0x8000000000000000

/-- A sparse part whose two buffer views are there, as far as it goes to their ends. -/
structure Sparse.Opens (d : Document) (a : Accessor) (s : Sparse) (t : ComponentType)
    (indices values : Extent) : Prop where
  type : s.indices.componentType = some t
  isIndex : t.isIndex = true
  resolvedIndices : resolve d s.indices.bufferView s.indices.byteOffset = .ok indices
  resolvedValues : resolve d s.values.bufferView s.values.byteOffset = .ok values
  indexRoom : s.count * t.size ≤ indices.available
  valueRoom : s.count * a.elementSize ≤ values.available

/-- What no check stops. -/
inductive Accessor.Breaks (d : Document) (a : Accessor) : Prop
  | zeros (absent : a.bufferView = none)
      (count : a.count < 0 ∨
        0x8000000000000000 ≤ a.count * a.type.components * a.componentType.size)
  | base {index : Int} {e : Extent} (present : a.bufferView = some index)
      (resolved : resolve d index a.byteOffset = .ok e)
      (stride : a.elementSize ≤ strideOf a.elementSize e.stride)
      (count : a.count < 0 ∨ 0 < a.count ∧ e.start < 0 ∧
        strideOf a.elementSize e.stride * (a.count - 1) + a.elementSize ≤ e.available)
  | indices {s : Sparse} {elements : List Element} {t : ComponentType} {indices values : Extent}
      (sparse : a.sparse = some s) (base : a.HasBase d elements)
      (opens : s.Opens d a t indices values) (start : indices.start < 0)
  /-- Unless one of the indices lies outside, which has a status. -/
  | replacements {s : Sparse} {elements : List Element} {t : ComponentType}
      {indices values : Extent} (sparse : a.sparse = some s) (base : a.HasBase d elements)
      (opens : s.Opens d a t indices values)
      (count : s.count < 0 ∨ 0 < s.count ∧ values.start < 0)
      (inside : ∀ targets, sparseIndices indices.data indices.start s.count t = .ok targets →
        ∀ i ∈ targets, i < a.count)

/-- Counts and offsets that are not negative, and zeros that can be counted. -/
structure Accessor.Unsigned (d : Document) (a : Accessor) : Prop where
  count : 0 ≤ a.count
  offset : 0 ≤ a.byteOffset
  views : ∀ view ∈ d.bufferViews, 0 ≤ view.byteOffset
  sparse : ∀ s, a.sparse = some s →
    0 ≤ s.count ∧ 0 ≤ s.indices.byteOffset ∧ 0 ≤ s.values.byteOffset
  size : a.bufferView = none →
    a.count * a.type.components * a.componentType.size < 0x8000000000000000

theorem isWord_iff {n : Int} :
    Bytes.isWord n = true ↔ -0x8000000000000000 ≤ n ∧ n < 0x8000000000000000 := by
  simp [Bytes.isWord]

section
variable {bs : Bytes} {start count : Int} {t : AccessorType} {c : ComponentType}

/-- Of elements that end inside the buffer only the count and the begin remain to be checked. -/
theorem gatherable_iff {stride : Nat} (short : bs.length < 0x8000000000000000)
    (hstride : 0 < stride)
    (hend : 0 < count → start + gatherLength t c count stride ≤ bs.length) :
    Gatherable bs start count stride t c ↔ 0 < count ∧ 0 ≤ start := by
  refine ⟨fun h => ⟨h.count_pos, h.start_nonneg⟩, fun ⟨hcount, hstart⟩ => ?_⟩
  have hinside := hend hcount
  have hspan := t.size_le_span c.size
  have hsize := c.size_pos
  have hstrides : (count - 1) * 1 ≤ (count - 1) * stride :=
    Int.mul_le_mul_of_nonneg_left (by omega) (by omega)
  have hlength : count ≤ gatherLength t c count stride := by
    rw [gatherLength]
    omega
  -- All three numbers are at most the length of the buffer.
  exact ⟨hcount, hstart, hinside, isWord_iff.2 (by omega), isWord_iff.2 (by omega),
    isWord_iff.2 (by omega)⟩

theorem gather_eq_error_iff {stride : Nat} (short : bs.length < 0x8000000000000000)
    (hstride : 0 < stride)
    (hend : 0 < count → start + gatherLength t c count stride ≤ bs.length) :
    (∃ fault, gather bs start count stride (t.offsets c.size) c = .error fault) ↔
      count < 0 ∨ 0 < count ∧ start < 0 := by
  simp only [exists_error_iff, gather_eq_ok_iff, exists_and_left, exists_eq, and_true,
    gatherable_iff short hstride hend]
  omega

theorem zeroElements_eq_error_iff :
    (∃ fault, zeroElements (t.offsets c.size) c count = .error fault) ↔
      count < 0 ∨ 0x8000000000000000 ≤ count * t.components * c.size := by
  simp only [exists_error_iff, zeroElements_eq_ok_iff, exists_and_left, exists_eq, and_true]
  omega

end

section
variable {d : Document} {a : Accessor} {s : Sparse} {index offset : Int} {e : Extent}
  {t : ComponentType} {indices values : Extent} {elements : List Element}

theorem resolve_end (h : resolve d index offset = .ok e) : e.start + e.available ≤ e.data.length := by
  obtain ⟨view, data, -, hend, -, rfl⟩ := resolve_eq_ok_iff.1 h
  simp only [Extent.ofView]
  omega

theorem Document.Addressable.length_lt (addressable : d.Addressable)
    (h : resolve d index offset = .ok e) : e.data.length < 0x8000000000000000 := by
  obtain ⟨view, data, ⟨-, buffer, hbuffer, hdata⟩, -, -, rfl⟩ := resolve_eq_ok_iff.1 h
  obtain ⟨n, -, hbuffer⟩ := elementAt?_eq_some hbuffer
  exact addressable buffer (List.mem_of_getElem? hbuffer) data hdata

theorem gatherLength_le (a : Accessor) (count : Int) {stride : Int} (hstride : 0 ≤ stride) :
    gatherLength a.type a.componentType count stride.toNat ≤
      stride * (count - 1) + a.elementSize := by
  have hspan := a.type.span_le_elementSize a.componentType
  rw [gatherLength, Int.toNat_of_nonneg hstride, Int.mul_comm, Accessor.elementSize]
  omega

theorem baseElements_fault_of_absent (absent : a.bufferView = none) :
    (∃ fault, baseElements d a = .error (.fault fault)) ↔
      a.count < 0 ∨ 0x8000000000000000 ≤ a.count * a.type.components * a.componentType.size := by
  rw [← zeroElements_eq_error_iff, baseElements, absent]
  simp [mapError_eq_error_iff]

theorem baseElements_fault_of_present (addressable : d.Addressable)
    (present : a.bufferView = some index) :
    (∃ fault, baseElements d a = .error (.fault fault)) ↔
      ∃ e, resolve d index a.byteOffset = .ok e ∧
        a.elementSize ≤ strideOf a.elementSize e.stride ∧
          (a.count < 0 ∨ 0 < a.count ∧ e.start < 0 ∧
            strideOf a.elementSize e.stride * (a.count - 1) + a.elementSize ≤ e.available) := by
  rw [baseElements, present]
  simp only [bind_eq_error_iff, mapError_eq_error_iff, mapError_eq_ok_iff, reduceCtorEq, and_false,
    exists_false, false_or]
  rw [exists_comm]
  refine exists_congr fun e => ?_
  rw [exists_and_left]
  refine and_congr_right fun resolved => ?_
  rw [Accessor.elementSize]
  split_ifs with hstride hroom
  · exact iff_of_false (by rintro ⟨_, ⟨⟩⟩) (by omega)
  · exact iff_of_false (by rintro ⟨_, ⟨⟩⟩) (by omega)
  · have hpos := a.elementSize_pos
    have hend := resolve_end resolved
    rw [Accessor.elementSize] at hpos
    have hnonneg : 0 ≤ strideOf (a.type.elementSize a.componentType) e.stride := by omega
    have hlength := gatherLength_le a a.count hnonneg
    rw [Accessor.elementSize] at hlength
    simp only [mapError_eq_error_iff, ViewFailure.fault.injEq, exists_eq_right]
    rw [gather_eq_error_iff (addressable.length_lt resolved) (by omega) (by omega)]
    omega

theorem applySparse_of_opens (h : s.Opens d a t indices values) (elements : List Element) :
    applySparse d a s elements = (do
      let targets ← (sparseIndices indices.data indices.start s.count t).mapError .fault
      if s.count ≠ 0 ∧ targets = [] then .error (.fault .noIndices)
      else if targets.any fun i => a.count ≤ i then .error (.status .invalidSparse)
      else
        let replacements ←
          (gather values.data values.start s.count a.elementSize
            (a.type.offsets a.componentType.size) a.componentType).mapError .fault
        .ok (scatter elements targets replacements)) := by
  have hfilter : s.indices.componentType.filter ComponentType.isIndex = some t :=
    Option.filter_eq_some_iff.2 ⟨h.type, h.isIndex⟩
  have hindex := h.indexRoom
  have hvalue := h.valueRoom
  rw [Accessor.elementSize] at hvalue ⊢
  simp only [applySparse, hfilter, h.resolvedIndices, h.resolvedValues, Except.mapError]
  exact if_neg (by omega)

theorem exists_opens_of_fault {fault : GatherFault}
    (h : applySparse d a s elements = .error (.fault fault)) :
    ∃ t indices values, s.Opens d a t indices values := by
  rw [applySparse] at h
  split at h
  · cases h
  · rename_i t ht
    obtain ⟨htype, hisIndex⟩ := Option.filter_eq_some_iff.1 ht
    simp only [bind_eq_error_iff, mapError_eq_error_iff, mapError_eq_ok_iff, reduceCtorEq,
      and_false, exists_false, false_or] at h
    obtain ⟨indices, hindices, values, hvalues, h⟩ := h
    split_ifs at h with hroom
    · cases h
    · rw [not_or, not_lt, not_lt] at hroom
      exact ⟨t, indices, values, htype, hisIndex, hindices, hvalues, hroom.1, hroom.2⟩

theorem sparseIndices_of_neg (bs : Bytes) {start : Int} (count : Int) (t : ComponentType)
    (h : start < 0) :
    ∃ fault, sparseIndices bs start count t = .error fault := by
  rw [sparseIndices]
  by_cases hwords : (!(Bytes.isWord start && Bytes.isWord count)) = true
  · exact ⟨_, if_pos hwords⟩
  · exact ⟨.outsideBuffer, by rw [if_neg hwords, if_pos (.inl h)]⟩

theorem Sparse.Opens.sparseIndices_eq_ok (addressable : d.Addressable)
    (h : s.Opens d a t indices values) (start : 0 ≤ indices.start) (count : 0 ≤ s.count) :
    sparseIndices indices.data indices.start s.count t =
      .ok (indicesFrom indices.data t indices.start.toNat s.count.toNat) := by
  have hend := resolve_end h.resolvedIndices
  have hshort := addressable.length_lt h.resolvedIndices
  have hroom := h.indexRoom
  have hcount : s.count * 1 ≤ s.count * t.size :=
    Int.mul_le_mul_of_nonneg_left (by exact_mod_cast t.size_pos) count
  exact (sparseIndices_eq_ok_iff count).2
    ⟨⟨start, by omega, isWord_iff.2 (by omega), isWord_iff.2 (by omega)⟩, rfl⟩

theorem Sparse.Opens.gather_eq_error_iff (addressable : d.Addressable)
    (h : s.Opens d a t indices values) :
    (∃ fault, gather values.data values.start s.count a.elementSize
      (a.type.offsets a.componentType.size) a.componentType = .error fault) ↔
      s.count < 0 ∨ 0 < s.count ∧ values.start < 0 := by
  have hend := resolve_end h.resolvedValues
  have hroom := h.valueRoom
  have hlength := gatherLength_le a s.count (Int.natCast_nonneg a.elementSize)
  rw [Int.toNat_natCast, Int.mul_sub, Int.mul_one, Int.mul_comm] at hlength
  exact Gltf.gather_eq_error_iff (addressable.length_lt h.resolvedValues) a.elementSize_pos
    (by omega)

theorem Sparse.Opens.fault_iff (addressable : d.Addressable) (h : s.Opens d a t indices values) :
    (∃ fault, applySparse d a s elements = .error (.fault fault)) ↔
      indices.start < 0 ∨ (s.count < 0 ∨ 0 < s.count ∧ values.start < 0) ∧
        ∀ targets, sparseIndices indices.data indices.start s.count t = .ok targets →
          ∀ i ∈ targets, i < a.count := by
  rw [applySparse_of_opens h]
  cases htargets : sparseIndices indices.data indices.start s.count t with
  | error fault =>
      -- Indices that begin in the buffer can be read unless their number is negative.
      refine iff_of_true ⟨fault, rfl⟩ ?_
      by_cases hstart : indices.start < 0
      · exact .inl hstart
      · refine .inr ⟨.inl ?_, fun targets htargets => by cases htargets⟩
        by_contra hcount
        rw [h.sparseIndices_eq_ok addressable (not_lt.1 hstart) (not_lt.1 hcount)] at htargets
        cases htargets
  | ok targets =>
      have hstart : ¬indices.start < 0 := by
        intro hneg
        obtain ⟨fault, hfault⟩ := sparseIndices_of_neg indices.data s.count t hneg
        simp [htargets] at hfault
      simp only [hstart, false_or, Except.ok.injEq, forall_eq', ← h.gather_eq_error_iff addressable]
      change (∃ fault, (if s.count ≠ 0 ∧ targets = [] then _ else _) = _) ↔ _
      split_ifs with hempty hinside
      -- Only a negative number of indices can come to none.
      · refine iff_of_true ⟨_, rfl⟩ ⟨(h.gather_eq_error_iff addressable).2 (.inl ?_), ?_⟩
        · by_contra hcount
          rw [h.sparseIndices_eq_ok addressable (not_lt.1 hstart) (not_lt.1 hcount),
            Except.ok.injEq, hempty.2] at htargets
          have hlength := congrArg List.length htargets
          rw [length_indicesFrom, List.length_nil] at hlength
          omega
        · simp [hempty.2]
      · refine iff_of_false (by rintro ⟨_, ⟨⟩⟩) fun hall => ?_
        obtain ⟨i, hi, hout⟩ := List.any_eq_true.1 hinside
        exact absurd (hall.2 i hi) (not_lt.2 (of_decide_eq_true hout))
      · simp only [List.any_eq_true, decide_eq_true_eq, not_exists, not_and, not_le] at hinside
        simp only [bind_eq_error_iff, mapError_eq_error_iff, ViewFailure.fault.injEq,
          exists_eq_right, reduceCtorEq, and_false, exists_false, or_false]
        exact (and_iff_left hinside).symm

theorem elementsOf_fault_iff :
    (∃ fault, elementsOf d a = .error (.fault fault)) ↔
      (∃ fault, baseElements d a = .error (.fault fault)) ∨
      ∃ s base, a.sparse = some s ∧ a.HasBase d base ∧
        ∃ fault, applySparse d a s base = .error (.fault fault) := by
  rw [elementsOf]
  simp only [bind_eq_error_iff, exists_or, baseElements_eq_ok_iff]
  refine or_congr_right ?_
  constructor
  · rintro ⟨fault, base, hbase, h⟩
    cases hs : a.sparse with
    | none => cases hdivisor : a.divisor? <;> simp [hs, hdivisor, bind, Except.bind] at h
    | some s =>
        rw [hs] at h
        refine ⟨s, base, rfl, hbase, fault, ?_⟩
        rcases bind_eq_error_iff.1 h with h | ⟨elements, -, h⟩
        · exact h
        · cases hdivisor : a.divisor? <;> simp [hdivisor] at h
  · rintro ⟨s, base, sparse, hbase, fault, h⟩
    refine ⟨fault, base, hbase, ?_⟩
    rw [sparse]
    exact bind_eq_error_iff.2 (.inl h)

theorem Accessor.breaks_iff (addressable : d.Addressable) :
    (∃ fault, elementsOf d a = .error (.fault fault)) ↔ a.Breaks d := by
  rw [elementsOf_fault_iff]
  constructor
  · rintro (h | ⟨s, base, sparse, hbase, fault, h⟩)
    · cases hview : a.bufferView with
      | none => exact .zeros hview ((baseElements_fault_of_absent hview).1 h)
      | some index =>
          obtain ⟨e, resolved, stride, count⟩ := (baseElements_fault_of_present addressable hview).1 h
          exact .base hview resolved stride count
    · obtain ⟨t, indices, values, opens⟩ := exists_opens_of_fault h
      rcases (opens.fault_iff addressable).1 ⟨fault, h⟩ with start | ⟨count, inside⟩
      · exact .indices sparse hbase opens start
      · exact .replacements sparse hbase opens count inside
  · rintro (⟨absent, count⟩ | ⟨present, resolved, stride, count⟩ | ⟨sparse, base, opens, start⟩ |
      ⟨sparse, base, opens, count, inside⟩)
    · exact .inl ((baseElements_fault_of_absent absent).2 count)
    · exact .inl ((baseElements_fault_of_present addressable present).2
        ⟨_, resolved, stride, count⟩)
    · exact .inr ⟨_, _, sparse, base, (opens.fault_iff addressable).2 (.inl start)⟩
    · exact .inr ⟨_, _, sparse, base, (opens.fault_iff addressable).2 (.inr ⟨count, inside⟩)⟩

theorem resolve_start_nonneg (views : ∀ view ∈ d.bufferViews, 0 ≤ view.byteOffset)
    (hoffset : 0 ≤ offset) (h : resolve d index offset = .ok e) : 0 ≤ e.start := by
  obtain ⟨view, data, ⟨hview, -⟩, -, -, rfl⟩ := resolve_eq_ok_iff.1 h
  obtain ⟨n, -, hview⟩ := elementAt?_eq_some hview
  have := views view (List.mem_of_getElem? hview)
  simp only [Extent.ofView]
  omega

theorem Accessor.Unsigned.not_breaks (h : a.Unsigned d) : ¬a.Breaks d := by
  rintro (⟨absent, count⟩ | ⟨present, resolved, stride, count⟩ | ⟨sparse, base, opens, start⟩ |
    ⟨sparse, base, opens, count, inside⟩)
  · have hcount := h.count
    have hsize := h.size absent
    omega
  · have hcount := h.count
    have hstart := resolve_start_nonneg h.views h.offset resolved
    omega
  · obtain ⟨-, hindices, -⟩ := h.sparse _ sparse
    have hstart := resolve_start_nonneg h.views hindices opens.resolvedIndices
    omega
  · obtain ⟨hcount, -, hvalues⟩ := h.sparse _ sparse
    have hstart := resolve_start_nonneg h.views hvalues opens.resolvedValues
    omega

end

/-- A view is made, and is valid or empty, exactly if its accessor does not break. It is always made
where counts and offsets are not negative. -/
theorem view_made_iff (d : Document) (index : Int) (addressable : d.Addressable) :
    ((∃ v, AccessorView.ofDocument d index = .ok v ∧ (v.status = .valid ∨ v.elements = [])) ↔
      ∀ a, elementAt? d.accessors index = some a → ¬a.Breaks d) ∧
    ((∀ a, elementAt? d.accessors index = some a → a.Unsigned d) →
      ∃ v, AccessorView.ofDocument d index = .ok v ∧ (v.status = .valid ∨ v.elements = [])) := by
  have hiff : (∃ v, AccessorView.ofDocument d index = .ok v ∧
      (v.status = .valid ∨ v.elements = [])) ↔
        ∀ a, elementAt? d.accessors index = some a → ¬a.Breaks d := by
    rw [AccessorView.ofDocument]
    cases haccessor : elementAt? d.accessors index with
    | none => simp
    | some a =>
        simp only [Option.some.injEq, forall_eq', ← Accessor.breaks_iff addressable]
        cases elementsOf d a with
        | ok elements => simp
        | error failure => cases failure <;> simp
  exact ⟨hiff, fun unsigned => hiff.2 fun a accessor => (unsigned a accessor).not_breaks⟩

/-- A negative number of replacements does not break a view if an index that is read lies
outside. -/
theorem view_made_outside_index :
    let sparse : Sparse :=
      { count := -1, indices := { bufferView := 0 }, values := { bufferView := 0 } }
    let a : Accessor := { componentType := .unsignedByte, count := 2, sparse := some sparse }
    let d : Document :=
      { accessors := [a], buffers := [{ data := some [1, 7] }],
        bufferViews := [{ buffer := 0, byteLength := 2 }] }
    d.Addressable ∧ ∃ v, AccessorView.ofDocument d 0 = .ok v ∧
      (v.status = .valid ∨ v.elements = []) := by
  intro sparse a d
  have addressable : d.Addressable := by
    rintro buffer hbuffer data hdata
    obtain rfl := List.mem_singleton.1 hbuffer
    cases hdata
    decide
  refine ⟨addressable, (view_made_iff d 0 addressable).1.2 ?_⟩
  rintro b ⟨⟩ (⟨absent, count⟩ | ⟨present, -, -, -⟩ | ⟨hsparse, base, opens, start⟩ |
    ⟨hsparse, base, opens, count, inside⟩)
  · revert count
    decide
  · cases present
  · cases hsparse
    cases opens.resolvedIndices
    revert start
    decide
  · cases hsparse
    cases opens.type
    cases opens.resolvedIndices
    have htargets : sparseIndices [1, 7] 0 (-1) .unsignedByte = .ok [1, 7] := by cbv
    have hseven := inside [1, 7] htargets 7 (by decide)
    revert hseven
    decide

/-- A file with an accessor of a negative number of elements. -/
theorem view_not_made_negative_count :
    let json : Bytes :=
      [123, 34, 97, 115, 115, 101, 116, 34, 58, 123, 34, 118, 101, 114, 115, 105, 111, 110, 34,
       58, 34, 50, 46, 48, 34, 125, 44, 34, 97, 99, 99, 101, 115, 115, 111, 114, 115, 34, 58, 91,
       123, 34, 99, 111, 109, 112, 111, 110, 101, 110, 116, 84, 121, 112, 101, 34, 58, 53, 49,
       50, 49, 44, 34, 116, 121, 112, 101, 34, 58, 34, 83, 67, 65, 76, 65, 82, 34, 44, 34, 99,
       111, 117, 110, 116, 34, 58, 45, 49, 125, 93, 125]
    let c : Collaborators (StateM Unit) := {}
    let a : Accessor := { componentType := .unsignedByte, count := -1 }
    let d : Document := { asset := { version := "2.0" }, accessors := [a] }
    (read c {} {} json).run () = (.ok (.document d []), ()) ∧
      AccessorView.ofDocument d 0 = .error .negativeCount := by
  intro json c a d
  have hjson : Json.parse json = .ok (.object
      [("asset", .object [("version", .string "2.0")]),
        ("accessors", .array
          [.object [("componentType", .number (.int 5121)), ("type", .string "SCALAR"),
            ("count", .number (.int (-1)))]])]) := rfl
  exact ⟨read_of_attach (d := ⟨d, []⟩) hjson rfl, rfl⟩

end Gltf
