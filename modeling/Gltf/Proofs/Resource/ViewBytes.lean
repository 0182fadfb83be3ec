import Gltf.Proofs.Accessor.Extent
import Gltf.Resource.View
import Mathlib

/-!
Ranges of bytes that are declared by a signed offset and a signed size, and the bytes of buffer views.
A slice is clipped to its data and counts negative places from the end, so it is the declared range
only where that lies in the data. The end of a buffer view is checked and its beginning is not.
-/

namespace Gltf

/-! ### Ranges -/

namespace Bytes

/-- Bytes that are those of data from an offset on, as many as a size says. -/
structure IsRange (data : Bytes) (offset size : Int) (found : Bytes) : Prop where
  length : (found.length : Int) = size
  bytes : ∀ j < found.length, ∃ n : ℕ, (n : Int) = offset + j ∧ found[j]? = data[n]?

variable {data found : Bytes} {offset size : Int}

theorem isRange_slice (hoffset : 0 ≤ offset) (hsize : 0 ≤ size)
    (hstop : offset + size ≤ data.length) :
    data.IsRange offset size (slice data offset (offset + size)) := by
  obtain ⟨o, rfl⟩ := Int.eq_ofNat_of_zero_le hoffset
  obtain ⟨n, rfl⟩ := Int.eq_ofNat_of_zero_le hsize
  have hfits : o + n ≤ data.length := by omega
  rw [← Int.natCast_add, slice_eq_take_drop (Nat.le_add_right _ _) hfits, Nat.add_sub_cancel_left]
  have hlength : ((data.drop o).take n).length = n := by
    rw [List.length_take, List.length_drop]
    omega
  refine ⟨by rw [hlength], fun j hj => ⟨o + j, Int.natCast_add o j, ?_⟩⟩
  rw [hlength] at hj
  rw [List.getElem?_take_of_lt hj, List.getElem?_drop]

/-- Of a range that is not empty, the first byte and the last lie in the data. -/
theorem IsRange.bounds (h : data.IsRange offset size found) (hne : size ≠ 0) :
    0 ≤ offset ∧ 0 ≤ size ∧ offset + size ≤ data.length := by
  have hlength := h.length
  obtain ⟨first, hfirst, -⟩ := h.bytes 0 (by omega)
  obtain ⟨last, hlast, hfound⟩ := h.bytes (found.length - 1) (by omega)
  have hpresent : last < data.length := by
    rw [List.getElem?_eq_getElem (by omega)] at hfound
    exact (List.getElem?_eq_some_iff.1 hfound.symm).1
  omega

/-- An empty range is cut as declared wherever it lies. -/
theorem isRange_slice_iff : data.IsRange offset size (slice data offset (offset + size)) ↔
    size = 0 ∨ 0 ≤ offset ∧ 0 ≤ size ∧ offset + size ≤ data.length := by
  constructor
  · intro h
    by_cases hempty : size = 0
    · exact .inl hempty
    · exact .inr (h.bounds hempty)
  · rintro (rfl | ⟨hoffset, hsize, hstop⟩)
    · have hnil : slice data offset (offset + 0) = [] := by
        rw [Int.add_zero, slice, Nat.sub_self, List.take_zero]
      rw [hnil]
      exact ⟨rfl, by simp⟩
    · exact isRange_slice hoffset hsize hstop

end Bytes

/-! ### Buffer views -/

variable {d : Document} {index : Int} {bs : Bytes}

theorem viewBytes_eq_ok_iff : d.viewBytes index = .ok bs ↔ ∃ view data, d.HasView index view data ∧
    view.byteOffset + view.byteLength ≤ data.length ∧
      bs = Bytes.slice data view.byteOffset (view.byteOffset + view.byteLength) := by
  constructor
  · intro h
    rw [Document.viewBytes] at h
    split at h
    · cases h
    · rename_i view hview
      split at h
      · cases h
      · rename_i b hb
        split at h
        · cases h
        · rename_i data hdata
          dsimp only at h
          split_ifs at h with hend
          cases h
          exact ⟨view, data, ⟨hview, b, hb, hdata⟩, not_lt.1 hend, rfl⟩
  · rintro ⟨view, data, ⟨hview, b, hb, hdata⟩, hend, rfl⟩
    simp only [Document.viewBytes, hview, hb, hdata]
    rw [if_neg (not_lt.2 hend)]

/-- The bytes of a view are refused, or they are all of the range that the view declares. -/
def Document.GivesView (d : Document) (index : Int) : Prop :=
  (∃ problem, d.viewBytes index = .error problem) ∨
    ∃ view data bs, d.HasView index view data ∧ d.viewBytes index = .ok bs ∧
      data.IsRange view.byteOffset view.byteLength bs

theorem exists_viewBytes_eq_error_iff : (∃ problem, d.viewBytes index = .error problem) ↔
    ∀ view data, d.HasView index view data → data.length < view.byteOffset + view.byteLength := by
  constructor
  · rintro ⟨problem, hproblem⟩ view data hview
    by_contra hend
    cases hproblem.symm.trans (viewBytes_eq_ok_iff.2 ⟨view, data, hview, not_lt.1 hend, rfl⟩)
  · intro houtside
    cases hbytes : d.viewBytes index with
    | error problem => exact ⟨problem, rfl⟩
    | ok bs =>
        obtain ⟨view, data, hview, hend, -⟩ := viewBytes_eq_ok_iff.1 hbytes
        exact absurd hend (not_le.2 (houtside view data hview))

theorem givesView_iff : d.GivesView index ↔ ∀ view data, d.HasView index view data →
    view.byteOffset + view.byteLength ≤ data.length →
      view.byteLength = 0 ∨ 0 ≤ view.byteOffset ∧ 0 ≤ view.byteLength := by
  constructor
  · intro h view data hview hend
    have hbytes := viewBytes_eq_ok_iff.2 ⟨view, data, hview, hend, rfl⟩
    rcases h with ⟨problem, hproblem⟩ | ⟨view', data', bs, hview', hgiven, hrange⟩
    · cases hproblem.symm.trans hbytes
    · obtain ⟨rfl, rfl⟩ := hview.unique hview'
      cases hgiven.symm.trans hbytes
      exact (Bytes.isRange_slice_iff.1 hrange).imp_right fun ⟨hoffset, hlength, _⟩ =>
        ⟨hoffset, hlength⟩
  · intro h
    cases hbytes : d.viewBytes index with
    | error problem => exact .inl ⟨problem, hbytes⟩
    | ok bs =>
        obtain ⟨view, data, hview, hend, rfl⟩ := viewBytes_eq_ok_iff.1 hbytes
        refine .inr ⟨view, data, _, hview, hbytes, Bytes.isRange_slice_iff.2 ?_⟩
        exact (h view data hview hend).imp_right fun ⟨hoffset, hlength⟩ => ⟨hoffset, hlength, hend⟩

/-- What the bytes of a buffer view are. They are refused exactly if there is no such view over a
buffer with data, or the view ends behind the data. Otherwise they are those that the view declares
exactly if it is empty, or neither its offset nor its length is negative. -/
theorem viewBytes_exact_iff (d : Document) (index : Int) :
    ((∃ problem, d.viewBytes index = .error problem) ↔ ∀ view data, d.HasView index view data →
      data.length < view.byteOffset + view.byteLength) ∧
    (d.GivesView index ↔ ∀ view data, d.HasView index view data →
      view.byteOffset + view.byteLength ≤ data.length →
        view.byteLength = 0 ∨ 0 ≤ view.byteOffset ∧ 0 ≤ view.byteLength) :=
  ⟨exists_viewBytes_eq_error_iff, givesView_iff⟩

/-- A view of one byte that starts before its buffer does. No byte is given for it, and it is not
refused. -/
theorem viewBytes_clips_range :
    let d : Document :=
      { buffers := [{ byteLength := 4, data := some [1, 2, 3, 4] }]
        bufferViews := [{ buffer := 0, byteOffset := -1, byteLength := 1 }] }
    d.viewBytes 0 = .ok [] ∧ ¬d.GivesView 0 := by
  intro d
  refine ⟨rfl, fun h => ?_⟩
  have hview : d.HasView 0 { buffer := 0, byteOffset := -1, byteLength := 1 } [1, 2, 3, 4] :=
    ⟨rfl, _, rfl, rfl⟩
  have hrange := givesView_iff.1 h _ _ hview (by decide)
  simp at hrange

end Gltf
