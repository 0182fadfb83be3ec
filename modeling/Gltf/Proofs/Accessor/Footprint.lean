import Gltf.Proofs.Accessor.Parts
import Gltf.Proofs.Resource.Returns
import Mathlib

/-!
The bytes that a valid view depends on: those of its base elements, of its sparse indices and of its
sparse replacements, each in the buffer of a view of its own. The checks bound them from above only,
so they lie in their views exactly if no offset that is used is negative.
-/

namespace Gltf

/-- The byte at a position in the buffer of a buffer view. -/
def Document.byteAt? (d : Document) (index position : Int) : Option UInt8 := do
  let view ← elementAt? d.bufferViews index
  let buffer ← elementAt? d.buffers view.buffer
  let data ← buffer.data
  elementAt? data position

def Document.InView (d : Document) (index position : Int) : Prop :=
  ∃ view, elementAt? d.bufferViews index = some view ∧ view.byteOffset ≤ position ∧
    position < view.byteOffset + view.byteLength

/-- The same accessors and buffer views over buffers of the same lengths. -/
structure Document.SameShape (d d' : Document) : Prop where
  accessors : d'.accessors = d.accessors
  bufferViews : d'.bufferViews = d.bufferViews
  lengths : d'.buffers.map (·.data.map List.length) = d.buffers.map (·.data.map List.length)

/-- The positions, in the buffers of buffer views, of the bytes that an accessor is decoded from. -/
inductive Accessor.Reads (d : Document) (a : Accessor) (index position : Int) : Prop
  | base {view : BufferView} {i c j : Nat} (present : a.bufferView = some index)
      (found : elementAt? d.bufferViews index = some view) (counted : i < a.count)
      (component : c < a.type.components) (byte : j < a.componentType.size)
      (position_eq : position = view.byteOffset + a.byteOffset +
        (i * strideOf a.elementSize view.byteStride +
          a.type.componentOffset a.componentType.size c + j))
  | index {s : Sparse} {t : ComponentType} {view : BufferView} {k j : Nat}
      (sparse : a.sparse = some s) (type : s.indices.componentType = some t)
      (own : s.indices.bufferView = index) (found : elementAt? d.bufferViews index = some view)
      (counted : k < s.count) (byte : j < t.size)
      (position_eq : position = view.byteOffset + s.indices.byteOffset + (k * t.size + j))
  | replacement {s : Sparse} {view : BufferView} {k c j : Nat} (sparse : a.sparse = some s)
      (own : s.values.bufferView = index) (found : elementAt? d.bufferViews index = some view)
      (counted : k < s.count) (component : c < a.type.components)
      (byte : j < a.componentType.size)
      (position_eq : position = view.byteOffset + s.values.byteOffset +
        (k * a.elementSize + a.type.componentOffset a.componentType.size c + j))

/-- No offset from which bytes are read is negative. -/
structure Accessor.OffsetsNonneg (a : Accessor) : Prop where
  base : a.bufferView.isSome → 0 < a.count → 0 ≤ a.byteOffset
  sparse : ∀ s, a.sparse = some s → 0 < s.count →
    0 ≤ s.indices.byteOffset ∧ 0 ≤ s.values.byteOffset

/-! ### Equal bytes, equal elements -/

theorem elementFrom_congr {bs bs' : Bytes} {t : AccessorType} {c : ComponentType} {place : Nat}
    (h : ∀ k < t.components, ∀ j < c.size,
      bs'[place + t.componentOffset c.size k + j]? = bs[place + t.componentOffset c.size k + j]?) :
    elementFrom bs' t c place = elementFrom bs t c place := by
  apply List.map_congr_left
  intro k hk
  rw [componentAt, componentAt, Bytes.take_drop_congr (h k (List.mem_range.1 hk))]

theorem indicesFrom_congr {bs bs' : Bytes} {c : ComponentType} {place count : Nat}
    (h : ∀ k < count, ∀ j < c.size,
      bs'[place + k * c.size + j]? = bs[place + k * c.size + j]?) :
    indicesFrom bs' c place count = indicesFrom bs c place count := by
  apply List.map_congr_left
  intro k hk
  exact Bytes.natAt_congr (h k (List.mem_range.1 hk))

theorem Gatherable.of_length {bs bs' : Bytes} {start count : Int} {stride : Nat}
    {t : AccessorType} {c : ComponentType} (h : Gatherable bs start count stride t c)
    (hlength : bs'.length = bs.length) : Gatherable bs' start count stride t c :=
  ⟨h.count_pos, h.start_nonneg, hlength ▸ h.inside, h.words⟩

section
variable {d d' : Document} {a : Accessor} {s : Sparse} {index offset : Int} {view : BufferView}
  {data : Bytes} {targets : List Nat} {elements replacements : List Element}

theorem Document.HasView.byteAt?_eq (h : d.HasView index view data) (position : Int) :
    d.byteAt? index position = elementAt? data position := by
  obtain ⟨hview, buffer, hbuffer, hdata⟩ := h
  simp only [byteAt?, hview, hbuffer, hdata, bind, Option.bind]

theorem Document.HasView.byteAt?_natCast (h : d.HasView index view data) (place : Nat) :
    d.byteAt? index place = data[place]? := by
  rw [h.byteAt?_eq, elementAt?_natCast]

theorem Document.SameShape.hasView (shape : d.SameShape d') (h : d.HasView index view data) :
    ∃ data', d'.HasView index view data' ∧ data'.length = data.length := by
  obtain ⟨hview, buffer, hbuffer, hdata⟩ := h
  obtain ⟨n, hn, hbuffer⟩ := elementAt?_eq_some hbuffer
  have hlength : (d'.buffers.map (·.data.map List.length))[n]? = some (some data.length) := by
    rw [shape.lengths, List.getElem?_map, hbuffer, Option.map_some, hdata, Option.map_some]
  rw [List.getElem?_map, Option.map_eq_some_iff] at hlength
  obtain ⟨buffer', hbuffer', hlength⟩ := hlength
  obtain ⟨data', hdata', hlength⟩ := Option.map_eq_some_iff.1 hlength
  refine ⟨data', ⟨shape.bufferViews ▸ hview, buffer', ?_, hdata'⟩, hlength⟩
  rw [hn, elementAt?_natCast, hbuffer']

theorem Document.SameShape.resolve (shape : d.SameShape d') {e : Extent}
    (h : resolve d index offset = .ok e) :
    ∃ view data', d.HasView index view e.data ∧ d'.HasView index view data' ∧
      e = .ofView view e.data offset ∧ data'.length = e.data.length ∧
      resolve d' index offset = .ok { e with data := data' } := by
  obtain ⟨view, data, hview, hend, hoffset, rfl⟩ := resolve_eq_ok_iff.1 h
  obtain ⟨data', hview', hlength⟩ := shape.hasView hview
  exact ⟨view, data', hview, hview', rfl, hlength,
    resolve_eq_ok_iff.2 ⟨view, data', hview', hlength ▸ hend, hoffset, rfl⟩⟩

/-- Elements agree if the bytes at their places do; there is nothing to read of no elements. -/
theorem Accessor.elementsFrom_congr {bs bs' : Bytes} {start count : Int} {stride : Nat}
    (hstart : 0 < count → 0 ≤ start)
    (h : ∀ i k j : Nat, i < count → k < a.type.components → j < a.componentType.size →
      elementAt? bs' (start + (i * stride + a.type.componentOffset a.componentType.size k + j)) =
        elementAt? bs (start + (i * stride + a.type.componentOffset a.componentType.size k + j))) :
    a.elementsFrom bs' start count stride = a.elementsFrom bs start count stride := by
  apply List.map_congr_left
  intro i hi
  rw [List.mem_range] at hi
  refine elementFrom_congr fun k hk j hj => ?_
  have hplace : start + (i * stride + a.type.componentOffset a.componentType.size k + j) =
      ((start.toNat + i * stride + a.type.componentOffset a.componentType.size k + j : Nat) :
        Int) := by
    push_cast
    omega
  rw [← elementAt?_natCast, ← elementAt?_natCast, ← hplace]
  exact h i k j (by omega) hk hj

theorem Accessor.HasBase.of_agree (shape : d.SameShape d')
    (agree : ∀ i p, a.Reads d i p → d'.byteAt? i p = d.byteAt? i p) (h : a.HasBase d elements) :
    a.HasBase d' elements := by
  cases h with
  | zeros absent count size => exact .zeros absent count size
  | @stored index e present resolved stride room =>
      obtain ⟨view, data', hview, hview', he, hlength, resolved'⟩ := shape.resolve resolved
      -- Elements are read only if there are any, and then they begin in the buffer.
      have hsame : a.elementsFrom data' e.start a.count (strideOf a.elementSize e.stride).toNat =
          a.elementsFrom e.data e.start a.count (strideOf a.elementSize e.stride).toNat := by
        refine a.elementsFrom_congr (fun hpos => ?_) fun i k j hi hk hj => ?_
        · rcases room with hzero | ⟨-, hg⟩
          · omega
          · exact hg.start_nonneg
        · rw [← hview'.byteAt?_eq, ← hview.byteAt?_eq]
          refine agree index _ (.base present hview.found hi hk hj ?_)
          rw [Int.toNat_of_nonneg (by omega), he]
          rfl
      rw [← hsame]
      exact .stored present resolved' stride (room.imp_right fun ⟨hroom, hg⟩ =>
        ⟨hroom, hg.of_length hlength⟩)

theorem Sparse.HasReplacements.of_agree (sparse : a.sparse = some s) (shape : d.SameShape d')
    (agree : ∀ i p, a.Reads d i p → d'.byteAt? i p = d.byteAt? i p)
    (h : s.HasReplacements d a targets replacements) :
    s.HasReplacements d' a targets replacements := by
  obtain ⟨htype, hindex, hindices, hvalues, hcount, hroom, hroom', hstart, hwords, hinside,
    hgather⟩ := h
  rename_i t indices values
  obtain ⟨indexView, indexData, hview, hview', hindex', hlength, hindices'⟩ := shape.resolve hindices
  obtain ⟨valueView, valueData, hvalueView, hvalueView', hvalue, hvalueLength,
    hvalues'⟩ := shape.resolve hvalues
  have htargets : indicesFrom indexData t indices.start.toNat s.count.toNat =
      indicesFrom indices.data t indices.start.toNat s.count.toNat := by
    refine indicesFrom_congr fun k hk j hj => ?_
    rw [← hview'.byteAt?_natCast, ← hview.byteAt?_natCast]
    refine agree _ _ (.index sparse htype rfl hview.found (by omega : (k : Int) < s.count) hj ?_)
    have hposition : indices.start = indexView.byteOffset + s.indices.byteOffset := by
      rw [hindex']
      rfl
    push_cast
    omega
  have hsame : a.elementsFrom valueData values.start s.count a.elementSize =
      a.elementsFrom values.data values.start s.count a.elementSize := by
    refine a.elementsFrom_congr (fun hpos => ?_) fun k c j hk hc hj => ?_
    · rcases hgather with hzero | hg
      · omega
      · exact hg.start_nonneg
    · rw [← hvalueView'.byteAt?_eq, ← hvalueView.byteAt?_eq]
      refine agree _ _ (.replacement sparse rfl hvalueView.found hk hc hj ?_)
      rw [hvalue]
      rfl
  rw [← htargets, ← hsame]
  exact .mk htype hindex hindices' hvalues' hcount hroom hroom' ⟨hstart.1, hlength ▸ hstart.2⟩
    hwords (htargets ▸ hinside) (hgather.imp_right fun hg => hg.of_length hvalueLength)

/-- What is read determines the elements. -/
theorem Accessor.HasElements.of_agree (shape : d.SameShape d')
    (agree : ∀ i p, a.Reads d i p → d'.byteAt? i p = d.byteAt? i p)
    (h : a.HasElements d elements) : a.HasElements d' elements := by
  cases h with
  | base dense base => exact .base dense (base.of_agree shape agree)
  | patched sparse base stored =>
      exact .patched sparse (base.of_agree shape agree) (stored.of_agree sparse shape agree)

/-! ### Places in buffer views -/

theorem place_lt_of_room {t : AccessorType} {c : ComponentType} {i k j : Nat}
    {count stride available : Int} (hi : i < count) (hk : k < t.components) (hj : j < c.size)
    (hstride : 0 ≤ stride) (room : stride * (count - 1) + t.elementSize c ≤ available) :
    i * stride + t.componentOffset c.size k + j < available := by
  have hoffset := t.componentOffset_add_le_span c.size hk
  have hspan := t.span_le_elementSize c
  have hlast : stride * i ≤ stride * (count - 1) := Int.mul_le_mul_of_nonneg_left (by omega) hstride
  rw [Int.mul_comm] at hlast
  omega

theorem index_lt_of_room {t : ComponentType} {k j : Nat} {count available : Int} (hk : k < count)
    (hj : j < t.size) (room : count * t.size ≤ available) : k * t.size + j < available := by
  have hlast : ((k : Int) + 1) * t.size ≤ count * t.size :=
    Int.mul_le_mul_of_nonneg_right (by omega) (by omega)
  rw [Int.add_mul, Int.one_mul] at hlast
  omega

theorem exists_eq_ofView {e : Extent} (found : elementAt? d.bufferViews index = some view)
    (h : resolve d index offset = .ok e) : ∃ data, e = .ofView view data offset := by
  obtain ⟨view', data, hview, -, -, rfl⟩ := resolve_eq_ok_iff.1 h
  obtain rfl : view = view' := by simpa [found] using hview.found
  exact ⟨data, rfl⟩

theorem Document.inView_iff (found : elementAt? d.bufferViews index = some view) (position : Int) :
    d.InView index position ↔
      view.byteOffset ≤ position ∧ position < view.byteOffset + view.byteLength := by
  rw [InView, found]
  simp

theorem Accessor.HasElements.hasBase (h : a.HasElements d elements) :
    ∃ base, a.HasBase d base := by
  cases h with
  | base dense base => exact ⟨_, base⟩
  | patched sparse base stored => exact ⟨_, base⟩

theorem Accessor.HasElements.hasReplacements (h : a.HasElements d elements)
    (sparse : a.sparse = some s) :
    ∃ targets replacements, s.HasReplacements d a targets replacements := by
  cases h with
  | base dense base => simp [sparse] at dense
  | patched sparse' base stored =>
      rw [sparse, Option.some.injEq] at sparse'
      subst sparse'
      exact ⟨_, _, stored⟩

theorem Accessor.HasBase.place_bounds {i c j : Nat} (h : a.HasBase d elements)
    (present : a.bufferView = some index) (found : elementAt? d.bufferViews index = some view)
    (hi : i < a.count) (hc : c < a.type.components) (hj : j < a.componentType.size) :
    0 ≤ i * strideOf a.elementSize view.byteStride +
        a.type.componentOffset a.componentType.size c + j ∧
      i * strideOf a.elementSize view.byteStride +
        a.type.componentOffset a.componentType.size c + j < view.byteLength - a.byteOffset := by
  cases h with
  | zeros absent => simp [present] at absent
  | @stored index' e present' resolved stride room =>
      rw [present, Option.some.injEq] at present'
      subst present'
      obtain ⟨data, rfl⟩ := exists_eq_ofView found resolved
      simp only [Extent.ofView] at stride room
      obtain ⟨hroom, -⟩ := room.resolve_left (by omega)
      have hstride : 0 ≤ strideOf a.elementSize view.byteStride := by omega
      have hlow : 0 ≤ i * strideOf a.elementSize view.byteStride := by positivity
      exact ⟨by omega, place_lt_of_room hi hc hj hstride hroom⟩

theorem Sparse.HasReplacements.index_lt {t : ComponentType} {k j : Nat}
    (h : s.HasReplacements d a targets replacements) (type : s.indices.componentType = some t)
    (found : elementAt? d.bufferViews s.indices.bufferView = some view) (hk : k < s.count)
    (hj : j < t.size) : k * t.size + j < view.byteLength - s.indices.byteOffset := by
  obtain ⟨htype, -, hindices, -, -, hroom, -, -, -, -, -⟩ := h
  rename_i t' indices values
  obtain rfl : t = t' := by simpa [type] using htype
  obtain ⟨data, rfl⟩ := exists_eq_ofView found hindices
  exact index_lt_of_room hk hj hroom

theorem Sparse.HasReplacements.replacement_lt {k c j : Nat}
    (h : s.HasReplacements d a targets replacements)
    (found : elementAt? d.bufferViews s.values.bufferView = some view) (hk : k < s.count)
    (hc : c < a.type.components) (hj : j < a.componentType.size) :
    k * a.elementSize + a.type.componentOffset a.componentType.size c + j <
      view.byteLength - s.values.byteOffset := by
  obtain ⟨-, -, -, hvalues, -, -, hroom, -, -, -, -⟩ := h
  obtain ⟨data, rfl⟩ := exists_eq_ofView found hvalues
  simp only [Extent.ofView] at hroom
  have hlast : (a.elementSize : Int) * (s.count - 1) + a.elementSize ≤
      view.byteLength - s.values.byteOffset := by
    linarith
  exact place_lt_of_room hk hc hj (Int.natCast_nonneg _) hlast

/-- Each byte that is read lies at or behind an offset into its view, and before the end of it. -/
theorem Accessor.HasElements.reads_bounds (h : a.HasElements d elements) {position : Int}
    (hread : a.Reads d index position) :
    ∃ view offset, elementAt? d.bufferViews index = some view ∧ (a.OffsetsNonneg → 0 ≤ offset) ∧
      view.byteOffset + offset ≤ position ∧ position < view.byteOffset + view.byteLength := by
  cases hread with
  | @base view i c j present found counted component byte position_eq =>
      obtain ⟨base, hbase⟩ := h.hasBase
      have hplace := hbase.place_bounds present found counted component byte
      exact ⟨view, a.byteOffset, found, fun nonneg => nonneg.base (by simp [present]) (by omega),
        by omega, by omega⟩
  | @index s t view k j sparse type own found counted byte position_eq =>
      obtain ⟨targets, replacements, hstored⟩ := h.hasReplacements sparse
      subst own
      have hplace := hstored.index_lt type found counted byte
      have hlow : (0 : Int) ≤ k * t.size := by positivity
      exact ⟨view, s.indices.byteOffset, found, fun nonneg => (nonneg.sparse s sparse (by omega)).1,
        by omega, by omega⟩
  | @replacement s view k c j sparse own found counted component byte position_eq =>
      obtain ⟨targets, replacements, hstored⟩ := h.hasReplacements sparse
      subst own
      have hplace := hstored.replacement_lt found counted component byte
      have hlow : (0 : Int) ≤ k * a.elementSize := by positivity
      exact ⟨view, s.values.byteOffset, found, fun nonneg => (nonneg.sparse s sparse (by omega)).2,
        by omega, by omega⟩

/-- The first byte that is read of each part lies at the offset of that part itself. -/
theorem Accessor.HasElements.offsetsNonneg (h : a.HasElements d elements)
    (inView : ∀ i p, a.Reads d i p → d.InView i p) : a.OffsetsNonneg := by
  refine ⟨fun hsome hcount => ?_, fun s sparse hcount => ?_⟩
  · obtain ⟨index, present⟩ := Option.isSome_iff_exists.1 hsome
    obtain ⟨base, hbase⟩ := h.hasBase
    cases hbase with
    | zeros absent => simp [present] at absent
    | @stored index' e present' resolved stride room =>
        obtain ⟨view, data, hview, -, -, -⟩ := resolve_eq_ok_iff.1 resolved
        have hread := inView index' _ (.base (i := 0) (c := 0) (j := 0) present' hview.found
          hcount a.type.components_pos a.componentType.size_pos rfl)
        rw [Document.inView_iff hview.found] at hread
        simp only [Nat.cast_zero, zero_mul, AccessorType.componentOffset_zero, add_zero] at hread
        omega
  · obtain ⟨targets, replacements, hstored⟩ := h.hasReplacements sparse
    obtain ⟨htype, -, hindices, hvalues, -, -, -, -, -, -, -⟩ := hstored
    rename_i t indices values
    obtain ⟨indexView, indexData, hindexView, -, -, -⟩ := resolve_eq_ok_iff.1 hindices
    obtain ⟨valueView, valueData, hvalueView, -, -, -⟩ := resolve_eq_ok_iff.1 hvalues
    have hindex := inView _ _ (.index (k := 0) (j := 0) sparse htype rfl hindexView.found hcount
      t.size_pos rfl)
    have hvalue := inView _ _ (.replacement (k := 0) (c := 0) (j := 0) sparse rfl hvalueView.found
      hcount a.type.components_pos a.componentType.size_pos rfl)
    rw [Document.inView_iff hindexView.found] at hindex
    rw [Document.inView_iff hvalueView.found] at hvalue
    simp only [Nat.cast_zero, zero_mul, AccessorType.componentOffset_zero, add_zero]
      at hindex hvalue
    omega

theorem Accessor.HasElements.inView (h : a.HasElements d elements) (nonneg : a.OffsetsNonneg)
    {position : Int} (hread : a.Reads d index position) : d.InView index position := by
  obtain ⟨view, offset, found, hoffset, hbegin, hend⟩ := h.reads_bounds hread
  have := hoffset nonneg
  exact ⟨view, found, by omega, hend⟩

end

/-- A valid view depends on no other bytes than those that are read. Each of them lies before the
end of the buffer view that it is read through, and all of them lie in their views exactly if no
offset from which bytes are read is negative. -/
theorem reads_of_valid_view (d : Document) (index : Int) (a : Accessor) (v : AccessorView)
    (accessor : elementAt? d.accessors index = some a)
    (made : AccessorView.ofDocument d index = .ok v) (valid : v.status = .valid) :
    (∀ d', d.SameShape d' → (∀ i p, a.Reads d i p → d'.byteAt? i p = d.byteAt? i p) →
      AccessorView.ofDocument d' index = .ok v) ∧
    (∀ i p, a.Reads d i p → ∃ view, elementAt? d.bufferViews i = some view ∧
      p < view.byteOffset + view.byteLength) ∧
    ((∀ i p, a.Reads d i p → d.InView i p) ↔ a.OffsetsNonneg) := by
  obtain ⟨elements, helements, rfl⟩ :=
    (AccessorView.ofDocument_eq_valid_iff accessor).1 ⟨made, valid⟩
  refine ⟨fun d' shape agree => ?_, fun i p hread => ?_, helements.offsetsNonneg,
    fun nonneg i p hread => helements.inView nonneg hread⟩
  · have accessor' : elementAt? d'.accessors index = some a := by
      rw [shape.accessors, accessor]
    exact ((AccessorView.ofDocument_eq_valid_iff accessor').2
      ⟨elements, helements.of_agree shape agree, rfl⟩).1
  · obtain ⟨view, offset, found, -, -, hend⟩ := helements.reads_bounds hread
    exact ⟨view, found, hend⟩

/-- Pairs of bytes that begin four bytes apart, the second of which is replaced. All other bytes of
the buffer may change. -/
theorem reads_of_valid_view_strided :
    let sparse : Sparse :=
      { count := 1, indices := { bufferView := 1 }, values := { bufferView := 2 } }
    let a : Accessor :=
      { bufferView := some 0, componentType := .unsignedByte, count := 2, type := .vec2,
        sparse := some sparse }
    let document (data : Bytes) : Document :=
      { accessors := [a]
        buffers := [{ data := some data }]
        bufferViews :=
          [{ buffer := 0, byteOffset := 2, byteLength := 6, byteStride := some 4 },
            { buffer := 0, byteOffset := 9, byteLength := 1 },
            { buffer := 0, byteOffset := 10, byteLength := 2 }] }
    let d := document [9, 9, 1, 2, 9, 9, 3, 4, 9, 1, 5, 6, 9]
    ∃ v, AccessorView.ofDocument d 0 = .ok v ∧ v.status = .valid ∧
      AccessorView.ofDocument (document [0, 7, 1, 2, 0, 7, 3, 4, 0, 1, 5, 6, 0]) 0 = .ok v ∧
      ∀ i p, a.Reads d i p → d.InView i p := by
  intro sparse a document d
  let v : AccessorView := ⟨.valid, some a, [[.int 1, .int 2], [.int 5, .int 6]]⟩
  have made : AccessorView.ofDocument d 0 = .ok v := by cbv
  obtain ⟨hsame, -, hinView⟩ := reads_of_valid_view d 0 a v rfl made rfl
  refine ⟨v, made, rfl, hsame _ ⟨rfl, rfl, rfl⟩ ?_, hinView.2 ⟨fun _ _ => by decide, ?_⟩⟩
  · intro index p hread
    cases hread with
    | @base view i c j present found counted component byte position_eq =>
        cases present
        cases found
        subst position_eq
        have hi : (i : Int) < 2 := counted
        replace hi : i < 2 := by omega
        have hc : c < 2 := component
        have hj : j < 1 := byte
        interval_cases i <;> interval_cases c <;> interval_cases j <;> rfl
    | @index s t view k j sparse type own found counted byte position_eq =>
        cases sparse
        cases type
        cases own
        cases found
        subst position_eq
        have hk : (k : Int) < 1 := counted
        replace hk : k < 1 := by omega
        have hj : j < 1 := byte
        interval_cases k
        interval_cases j
        rfl
    | @replacement s view k c j sparse own found counted component byte position_eq =>
        cases sparse
        cases own
        cases found
        subst position_eq
        have hk : (k : Int) < 1 := counted
        replace hk : k < 1 := by omega
        have hc : c < 2 := component
        have hj : j < 1 := byte
        interval_cases k
        interval_cases c <;> interval_cases j <;> rfl
  · rintro s ⟨⟩ -
    exact ⟨le_rfl, le_rfl⟩

set_option maxRecDepth 8192 in
/-- A file with two views of four bytes each: a negative offset into the second one reads the whole
of the first. -/
theorem valid_view_reads_neighbour :
    let json : Bytes :=
        [123, 34, 97, 115, 115, 101, 116, 34, 58, 123, 34, 118, 101, 114, 115, 105, 111, 110, 34,
         58, 34, 50, 46, 48, 34, 125, 44, 34, 98, 117, 102, 102, 101, 114, 115, 34, 58, 91, 123,
         34, 117, 114, 105, 34, 58, 34, 98, 34, 44, 34, 98, 121, 116, 101, 76, 101, 110, 103, 116,
         104, 34, 58, 56, 125, 93, 44, 34, 98, 117, 102, 102, 101, 114, 86, 105, 101, 119, 115, 34,
         58, 91, 123, 34, 98, 117, 102, 102, 101, 114, 34, 58, 48, 44, 34, 98, 121, 116, 101, 76,
         101, 110, 103, 116, 104, 34, 58, 52, 125, 44, 123, 34, 98, 117, 102, 102, 101, 114, 34,
         58, 48, 44, 34, 98, 121, 116, 101, 79, 102, 102, 115, 101, 116, 34, 58, 52, 44, 34, 98,
         121, 116, 101, 76, 101, 110, 103, 116, 104, 34, 58, 52, 125, 93, 44, 34, 97, 99, 99, 101,
         115, 115, 111, 114, 115, 34, 58, 91, 123, 34, 98, 117, 102, 102, 101, 114, 86, 105, 101,
         119, 34, 58, 49, 44, 34, 98, 121, 116, 101, 79, 102, 102, 115, 101, 116, 34, 58, 45, 52,
         44, 34, 99, 111, 109, 112, 111, 110, 101, 110, 116, 84, 121, 112, 101, 34, 58, 53, 49, 50,
         49, 44, 34, 116, 121, 112, 101, 34, 58, 34, 83, 67, 65, 76, 65, 82, 34, 44, 34, 99, 111,
         117, 110, 116, 34, 58, 52, 125, 93, 125]
    let c : Collaborators (StateM Unit) :=
      { loader := some fun _ => pure (.ok [1, 2, 3, 4, 5, 6, 7, 8]) }
    let a : Accessor :=
      { bufferView := some 1, byteOffset := -4, componentType := .unsignedByte, count := 4 }
    let d : Document :=
      { asset := { version := "2.0" }
        buffers := [{ uri := some "b", byteLength := 8, data := some [1, 2, 3, 4, 5, 6, 7, 8] }]
        bufferViews :=
          [{ buffer := 0, byteLength := 4 }, { buffer := 0, byteOffset := 4, byteLength := 4 }]
        accessors := [a] }
    (read c {} {} json).run () = (.ok (.document d []), ()) ∧
      AccessorView.ofDocument d 0 =
        .ok ⟨.valid, some a, [[.int 1], [.int 2], [.int 3], [.int 4]]⟩ ∧
      ∀ p : Int, 0 ≤ p → p < 4 → a.Reads d 1 p ∧ d.InView 0 p ∧ ¬d.InView 1 p := by
  intro json c a d
  have hjson : Json.parse json = .ok (.object
      [("asset", .object [("version", .string "2.0")]),
        ("buffers", .array
          [.object [("uri", .string "b"), ("byteLength", .number (.int 8))]]),
        ("bufferViews", .array
          [.object [("buffer", .number (.int 0)), ("byteLength", .number (.int 4))],
            .object [("buffer", .number (.int 0)), ("byteOffset", .number (.int 4)),
              ("byteLength", .number (.int 4))]]),
        ("accessors", .array
          [.object [("bufferView", .number (.int 1)), ("byteOffset", .number (.int (-4))),
            ("componentType", .number (.int 5121)), ("type", .string "SCALAR"),
            ("count", .number (.int 4))]])]) := rfl
  refine ⟨read_of_attach (d := ⟨d, []⟩) hjson rfl, by cbv, fun p hp hp' => ⟨?_, ?_, ?_⟩⟩
  · refine .base (i := p.toNat) (c := 0) (j := 0) rfl rfl ?_ (by decide) (by decide) ?_
    · change (p.toNat : Int) < 4
      omega
    · change p = 4 + -4 + (p.toNat * 1 + 0 + 0)
      omega
  · rw [Document.inView_iff rfl]
    change 0 ≤ p ∧ p < 0 + 4
    omega
  · rw [Document.inView_iff rfl]
    change ¬((4 : Int) ≤ p ∧ p < 4 + 4)
    omega

end Gltf
