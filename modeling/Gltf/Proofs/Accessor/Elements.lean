import Gltf.Proofs.Accessor.Parts
import Mathlib

/-!
What a valid view shows, said by places in buffers: a component of an element is the one of the last
sparse replacement that its index lists, or else the one that the buffer view holds at its place, or
else zero.
-/

namespace Gltf

/-- The `k`-th index that a sparse part stores is `i`. -/
inductive Sparse.Lists (d : Document) (s : Sparse) (k i : Nat) : Prop
  | mk {t : ComponentType} {view : BufferView} {data : Bytes} {place : Nat} (counted : k < s.count)
      (type : s.indices.componentType = some t)
      (hasView : d.HasView s.indices.bufferView view data)
      (place_eq : (place : Int) = view.byteOffset + s.indices.byteOffset + k * t.size)
      (value : Bytes.natAt data place t.size = i)

def Accessor.Unlisted (d : Document) (a : Accessor) (i : Nat) : Prop :=
  ∀ s, a.sparse = some s → ∀ k, ¬s.Lists d k i

/-- The number that the document stores as component `c` of element `i`. -/
inductive Accessor.HasComponent (d : Document) (a : Accessor) (i c : Nat) : Number → Prop
  | replaced {s : Sparse} {k : Nat} {view : BufferView} {data : Bytes} {place : Nat}
      (sparse : a.sparse = some s) (listed : s.Lists d k i) (last : ∀ k' > k, ¬s.Lists d k' i)
      (hasView : d.HasView s.values.bufferView view data)
      (place_eq : (place : Int) = view.byteOffset + s.values.byteOffset + k * a.elementSize +
        a.type.componentOffset a.componentType.size c) :
      a.HasComponent d i c (componentAt data a.componentType place)
  | stored {index : Int} {view : BufferView} {data : Bytes} {place : Nat}
      (present : a.bufferView = some index) (unlisted : a.Unlisted d i)
      (hasView : d.HasView index view data)
      (place_eq : (place : Int) = view.byteOffset + a.byteOffset +
        i * strideOf a.elementSize view.byteStride +
          a.type.componentOffset a.componentType.size c) :
      a.HasComponent d i c (componentAt data a.componentType place)
  | zero (absent : a.bufferView = none) (unlisted : a.Unlisted d i) :
      a.HasComponent d i c a.componentType.zero

/-- An element with as many components as its type says, which are those that the document
stores. -/
structure Accessor.HasElement (d : Document) (a : Accessor) (i : Nat) (element : Element) : Prop where
  length : element.length = a.type.components
  component : ∀ c number, element[c]? = some number ↔
    c < a.type.components ∧ a.HasComponent d i c number

/-! ### Replacing elements -/

@[simp] theorem scatter_nil (elements replacements : List Element) :
    scatter elements [] replacements = elements := by
  cases replacements <;> rfl

@[simp] theorem length_scatter (elements : List Element) (indices : List Nat)
    (replacements : List Element) :
    (scatter elements indices replacements).length = elements.length := by
  induction indices generalizing elements replacements with
  | nil => rw [scatter_nil]
  | cons index indices ih =>
      cases replacements with
      | nil => rfl
      | cons replacement replacements => rw [scatter, ih, List.length_set]

theorem getElem?_scatter_of_notMem {elements replacements : List Element} {indices : List Nat}
    {i : Nat} (h : i ∉ indices) : (scatter elements indices replacements)[i]? = elements[i]? := by
  induction indices generalizing elements replacements with
  | nil => rw [scatter_nil]
  | cons index indices ih =>
      cases replacements with
      | nil => rfl
      | cons replacement replacements =>
          rw [List.mem_cons, not_or] at h
          rw [scatter, ih h.2, List.getElem?_set_ne (Ne.symm h.1)]

/-- Of replacements for the same element the last one stays. -/
theorem getElem?_scatter_of_last {elements replacements : List Element} {indices : List Nat}
    {i k : Nat} (hi : i < elements.length) (hlength : indices.length = replacements.length)
    (hk : indices[k]? = some i) (hlast : ∀ k' > k, indices[k']? ≠ some i) :
    (scatter elements indices replacements)[i]? = replacements[k]? := by
  induction indices generalizing elements replacements k with
  | nil => cases hk
  | cons index indices ih =>
      cases replacements with
      | nil => cases hlength
      | cons replacement replacements =>
          cases k with
          | zero =>
              rw [List.getElem?_cons_zero, Option.some.injEq] at hk
              subst hk
              have hrest : index ∉ indices := by
                intro hmem
                obtain ⟨k', hk'⟩ := List.mem_iff_getElem?.1 hmem
                exact hlast (k' + 1) (Nat.succ_pos k') (by rwa [List.getElem?_cons_succ])
              rw [scatter, getElem?_scatter_of_notMem hrest, List.getElem?_set_self hi,
                List.getElem?_cons_zero]
          | succ k =>
              rw [scatter, List.getElem?_cons_succ]
              apply ih
              · rwa [List.length_set]
              · simpa using hlength
              · rwa [List.getElem?_cons_succ] at hk
              · intro k' hk'
                rw [← List.getElem?_cons_succ (a := index)]
                exact hlast (k' + 1) (Nat.succ_lt_succ hk')

theorem exists_last_of_mem {indices : List Nat} {i : Nat} (h : i ∈ indices) :
    ∃ k : Nat, indices[k]? = some i ∧ ∀ k' > k, indices[k']? ≠ some i := by
  induction indices with
  | nil => cases h
  | cons index indices ih =>
      by_cases hrest : i ∈ indices
      · obtain ⟨k, hk, hlast⟩ := ih hrest
        refine ⟨k + 1, by rwa [List.getElem?_cons_succ], fun k' hk' => ?_⟩
        obtain ⟨k', rfl⟩ : ∃ n, k' = n + 1 := ⟨k' - 1, by omega⟩
        rw [List.getElem?_cons_succ]
        exact hlast k' (by omega)
      · rcases List.mem_cons.1 h with rfl | h
        · refine ⟨0, List.getElem?_cons_zero, fun k' hk' hsome => hrest ?_⟩
          obtain ⟨k', rfl⟩ : ∃ n, k' = n + 1 := ⟨k' - 1, by omega⟩
          rw [List.getElem?_cons_succ] at hsome
          exact List.mem_of_getElem? hsome
        · exact absurd h hrest

/-! ### Places of elements -/

theorem Accessor.length_elementsFrom (a : Accessor) (bs : Bytes) (start count : Int)
    (stride : Nat) : (a.elementsFrom bs start count stride).length = count.toNat := by
  rw [elementsFrom, List.length_map, List.length_range]

theorem Accessor.getElem?_elementsFrom {a : Accessor} {bs : Bytes} {start count : Int}
    {stride i : Nat} (h : i < count) : (a.elementsFrom bs start count stride)[i]? =
      some (elementFrom bs a.type a.componentType (start.toNat + i * stride)) := by
  have hi : i < count.toNat := by omega
  rw [elementsFrom, List.getElem?_map, List.getElem?_range hi, Option.map_some]

theorem getElem?_elementFrom {bs : Bytes} {t : AccessorType} {c : ComponentType} {place k : Nat}
    (h : k < t.components) : (elementFrom bs t c place)[k]? =
      some (componentAt bs c (place + t.componentOffset c.size k)) := by
  rw [elementFrom, List.getElem?_map, List.getElem?_range h, Option.map_some]

theorem getElem?_indicesFrom {bs : Bytes} {c : ComponentType} {place count k : Nat}
    (h : k < count) :
    (indicesFrom bs c place count)[k]? = some (Bytes.natAt bs (place + k * c.size) c.size) := by
  rw [indicesFrom, List.getElem?_map, List.getElem?_range h, Option.map_some]

section
variable {d : Document} {a : Accessor} {s : Sparse} {targets : List Nat}
  {elements replacements : List Element} {i k c : Nat}

theorem Sparse.HasReplacements.getElem?_targets
    (h : s.HasReplacements d a targets replacements) : targets[k]? = some i ↔ s.Lists d k i := by
  obtain ⟨htype, -, hindices, -, hcount, -, -, ⟨hstart, -⟩, -, -, -⟩ := h
  rename_i t indices values
  obtain ⟨view, data, hview, -, -, rfl⟩ := resolve_eq_ok_iff.1 hindices
  simp only [Extent.ofView] at hstart ⊢
  constructor
  · intro h
    have hk : k < s.count.toNat := by
      simpa using (List.getElem?_eq_some_iff.1 h).1
    rw [getElem?_indicesFrom hk, Option.some.injEq] at h
    refine .mk (by omega) htype hview ?_ h
    push_cast
    omega
  · rintro ⟨hk, htype', hview', hplace, rfl⟩
    rename_i t' view' data' place
    rw [htype, Option.some.injEq] at htype'
    subst htype'
    obtain ⟨rfl, rfl⟩ := hview.unique hview'
    rw [getElem?_indicesFrom (by omega)]
    congr 2
    zify
    omega

theorem Accessor.HasComponent.unique {number number' : Number} (h : a.HasComponent d i c number)
    (h' : a.HasComponent d i c number') : number = number' := by
  cases h with
  | @replaced s k view data place sparse listed last hasView place_eq =>
      cases h' with
      | @replaced s' k' view' data' place' sparse' listed' last' hasView' place_eq' =>
          rw [sparse, Option.some.injEq] at sparse'
          subst sparse'
          obtain rfl : k = k' := by
            rcases Nat.lt_trichotomy k k' with hlt | heq | hgt
            · exact absurd listed' (last k' hlt)
            · exact heq
            · exact absurd listed (last' k hgt)
          obtain ⟨rfl, rfl⟩ := hasView.unique hasView'
          obtain rfl : place = place' := by omega
          rfl
      | stored present unlisted => exact absurd listed (unlisted s sparse k)
      | zero absent unlisted => exact absurd listed (unlisted s sparse k)
  | @stored index view data place present unlisted hasView place_eq =>
      cases h' with
      | replaced sparse listed => exact absurd listed (unlisted _ sparse _)
      | @stored index' view' data' place' present' unlisted' hasView' place_eq' =>
          rw [present, Option.some.injEq] at present'
          subst present'
          obtain ⟨rfl, rfl⟩ := hasView.unique hasView'
          obtain rfl : place = place' := by omega
          rfl
      | zero absent unlisted => simp [present] at absent
  | zero absent unlisted =>
      cases h' with
      | replaced sparse listed => exact absurd listed (unlisted _ sparse _)
      | stored present unlisted => simp [present] at absent
      | zero absent unlisted => rfl

theorem Accessor.HasElement.of_forall {element : Element}
    (length : element.length = a.type.components)
    (h : ∀ c number, element[c]? = some number → a.HasComponent d i c number) :
    a.HasElement d i element := by
  refine ⟨length, fun c number => ⟨fun hc => ⟨?_, h c number hc⟩, fun ⟨hlt, hnumber⟩ => ?_⟩⟩
  · rw [← length]
    exact (List.getElem?_eq_some_iff.1 hc).1
  · have hc : element[c]? = some element[c] := List.getElem?_eq_getElem (by omega)
    rw [hc, Option.some.injEq]
    exact (h c _ hc).unique hnumber

theorem Accessor.hasElement_elementFrom {bs : Bytes} {place : Nat}
    (h : ∀ c < a.type.components, a.HasComponent d i c
      (componentAt bs a.componentType (place + a.type.componentOffset a.componentType.size c))) :
    a.HasElement d i (elementFrom bs a.type a.componentType place) := by
  refine .of_forall (length_elementFrom _ _ _ _) fun c number hc => ?_
  have hlt : c < a.type.components := by
    simpa using (List.getElem?_eq_some_iff.1 hc).1
  rw [getElem?_elementFrom hlt, Option.some.injEq] at hc
  exact hc ▸ h c hlt

theorem Sparse.HasReplacements.hasElement (sparse : a.sparse = some s)
    (h : s.HasReplacements d a targets replacements) (listed : s.Lists d k i)
    (last : ∀ k' > k, ¬s.Lists d k' i) :
    ∃ element, replacements[k]? = some element ∧ a.HasElement d i element := by
  obtain ⟨-, -, -, hvalues, -, -, -, -, -, -, hgather⟩ := h
  rename_i t indices values
  obtain ⟨view, data, hview, -, -, rfl⟩ := resolve_eq_ok_iff.1 hvalues
  have hk : k < s.count := by
    obtain ⟨hk, -, -, -, -⟩ := listed
    exact hk
  have hstart : 0 ≤ view.byteOffset + s.values.byteOffset := by
    rcases hgather with hzero | hg
    · omega
    · exact hg.start_nonneg
  refine ⟨_, a.getElem?_elementsFrom hk, a.hasElement_elementFrom fun c hc => ?_⟩
  refine .replaced sparse listed last hview ?_
  simp only [Extent.ofView]
  push_cast
  omega

theorem Accessor.HasBase.hasElement (h : a.HasBase d elements) (unlisted : a.Unlisted d i)
    (hi : i < a.count) : ∃ element, elements[i]? = some element ∧ a.HasElement d i element := by
  cases h with
  | zeros absent count size =>
      have hlt : i < a.count.toNat := by omega
      refine ⟨_, List.getElem?_replicate_of_lt hlt, ?_⟩
      refine .of_forall List.length_replicate fun c number hc => ?_
      rw [List.getElem?_replicate] at hc
      split_ifs at hc
      cases hc
      exact .zero absent unlisted
  | @stored index e present resolved stride room =>
      obtain ⟨view, data, hview, -, -, rfl⟩ := resolve_eq_ok_iff.1 resolved
      have hstart : 0 ≤ view.byteOffset + a.byteOffset := by
        rcases room with hzero | ⟨-, hg⟩
        · omega
        · exact hg.start_nonneg
      refine ⟨_, a.getElem?_elementsFrom hi, a.hasElement_elementFrom fun c hc => ?_⟩
      refine .stored present unlisted hview ?_
      simp only [Extent.ofView] at stride ⊢
      have hstride : 0 ≤ strideOf a.elementSize view.byteStride := by omega
      push_cast
      rw [Int.toNat_of_nonneg hstride, Int.toNat_of_nonneg hstart]

theorem Accessor.HasBase.length_eq (h : a.HasBase d elements) : (elements.length : Int) = a.count := by
  cases h with
  | zeros absent count size =>
      rw [List.length_replicate]
      omega
  | stored present resolved stride room =>
      rw [length_elementsFrom]
      rcases room with hzero | ⟨-, hg⟩
      · omega
      · have := hg.count_pos
        omega

theorem Accessor.HasElements.length_eq (h : a.HasElements d elements) :
    (elements.length : Int) = a.count := by
  cases h with
  | base dense base => exact base.length_eq
  | patched sparse base stored =>
      rw [length_scatter]
      exact base.length_eq

theorem Sparse.HasReplacements.length_eq (h : s.HasReplacements d a targets replacements) :
    targets.length = replacements.length := by
  cases h
  rw [length_indicesFrom, Accessor.length_elementsFrom]

theorem Accessor.HasElements.hasElement (h : a.HasElements d elements) (hi : i < a.count) :
    ∃ element, elements[i]? = some element ∧ a.HasElement d i element := by
  cases h with
  | base dense base =>
      refine base.hasElement (fun s hs => ?_) hi
      simp [dense] at hs
  | @patched s elements replacements targets sparse base stored =>
      by_cases hlisted : i ∈ targets
      · obtain ⟨k, hk, hlast⟩ := exists_last_of_mem hlisted
        have hlength : i < elements.length := by
          have := base.length_eq
          omega
        rw [getElem?_scatter_of_last hlength stored.length_eq hk hlast]
        apply stored.hasElement sparse (stored.getElem?_targets.1 hk)
        intro k' hk' hlists
        exact hlast k' hk' (stored.getElem?_targets.2 hlists)
      · rw [getElem?_scatter_of_notMem hlisted]
        refine base.hasElement (fun s' hs' k hlists => hlisted ?_) hi
        rw [sparse, Option.some.injEq] at hs'
        subst hs'
        exact List.mem_of_getElem? (stored.getElem?_targets.2 hlists)

end

/-! ### Access to a view -/

theorem AccessorView.get_natCast {v : AccessorView} {i : Nat} {element : Element}
    (h : v.elements[i]? = some element) : v.get i = .ok element := by
  rw [get, if_neg (by omega : ¬(i : Int) < 0), elementAt?_natCast, h]

theorem AccessorView.get_sub_size {v : AccessorView} {i : Nat} {element : Element}
    (h : v.elements[i]? = some element) : v.get (i - v.size) = .ok element := by
  have hi : i < v.size := (List.getElem?_eq_some_iff.1 h).1
  rw [get, if_pos (by omega : (i : Int) - v.size < 0), Int.sub_add_cancel, elementAt?_natCast, h]

theorem AccessorView.get_out_of_range {v : AccessorView} {index : Int}
    (h : index < -v.size ∨ v.size ≤ index) :
    v.get index = .error ⟨if index < 0 then index + v.size else index, v.size⟩ := by
  have hnone : elementAt? v.elements (if index < 0 then index + v.size else index) = none := by
    rw [elementAt?]
    split_ifs with hneg hplace
    · rfl
    · omega
    · rw [List.getElem?_eq_none_iff]
      have : v.elements.length = v.size := rfl
      omega
  rw [get, hnone]

/-- A valid view of an accessor that is not normalized has as many elements as the accessor counts.
Each is found at its index and at that index counted from the end, and its components are those that
the document stores; any other index is out of range. -/
theorem elements_of_valid_view (d : Document) (index : Int) (a : Accessor) (v : AccessorView)
    (accessor : elementAt? d.accessors index = some a)
    (made : AccessorView.ofDocument d index = .ok v) (valid : v.status = .valid)
    (plain : a.normalized = false) :
    (v.size : Int) = a.count ∧
    (∀ i < v.size, ∃ element, v.elements[i]? = some element ∧ v.get i = .ok element ∧
      v.get (i - v.size) = .ok element ∧ a.HasElement d i element) ∧
    ∀ j : Int, j < -v.size ∨ v.size ≤ j →
      v.get j = .error ⟨if j < 0 then j + v.size else j, v.size⟩ := by
  obtain ⟨elements, helements, rfl⟩ := (AccessorView.ofDocument_eq_valid_iff accessor).1 ⟨made, valid⟩
  have hshown : a.shown elements = elements := by
    simp [Accessor.shown, Accessor.divisor?, plain]
  rw [hshown]
  have hsize := helements.length_eq
  refine ⟨hsize, fun i hi => ?_, fun j hj => AccessorView.get_out_of_range hj⟩
  have hi' : i < elements.length := hi
  obtain ⟨element, helement, hholds⟩ := helements.hasElement (i := i) (by omega)
  exact ⟨element, helement, AccessorView.get_natCast helement, AccessorView.get_sub_size helement,
    hholds⟩

/-- Pairs of bytes that begin three bytes apart; the first is replaced once and the last twice. -/
theorem elements_of_valid_view_replaced_twice :
    let sparse : Sparse :=
      { count := 3, indices := { bufferView := 1 }, values := { bufferView := 2 } }
    let a : Accessor :=
      { bufferView := some 0, byteOffset := 1, componentType := .unsignedByte, count := 3,
        type := .vec2, sparse := some sparse }
    let d : Document :=
      { accessors := [a]
        buffers :=
          [{ data := some [9, 9, 9, 1, 2, 9, 3, 4, 9, 5, 6, 2, 0, 2, 10, 11, 12, 13, 14, 15] }]
        bufferViews :=
          [{ buffer := 0, byteOffset := 2, byteLength := 9, byteStride := some 3 },
            { buffer := 0, byteOffset := 11, byteLength := 3 },
            { buffer := 0, byteOffset := 14, byteLength := 6 }] }
    ∃ v, AccessorView.ofDocument d 0 = .ok v ∧ v.status = .valid ∧
      v.elements = [[.int 12, .int 13], [.int 3, .int 4], [.int 14, .int 15]] ∧
      v.get (-1) = .ok [.int 14, .int 15] ∧ a.HasElement d 2 [.int 14, .int 15] ∧
      v.get 3 = .error ⟨3, 3⟩ := by
  intro sparse a d
  let v : AccessorView :=
    ⟨.valid, some a, [[.int 12, .int 13], [.int 3, .int 4], [.int 14, .int 15]]⟩
  have made : AccessorView.ofDocument d 0 = .ok v := by cbv
  refine ⟨v, made, rfl, rfl, ?_⟩
  obtain ⟨-, hin, hout⟩ := elements_of_valid_view d 0 a v rfl made rfl rfl
  obtain ⟨element, helement, -, hlast, hholds⟩ := hin 2 (by decide)
  cases helement
  exact ⟨hlast, hholds, hout 3 (by decide)⟩

end Gltf
