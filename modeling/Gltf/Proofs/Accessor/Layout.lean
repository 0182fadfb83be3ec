import Gltf.Accessor.Layout
import Mathlib

/-!
Where the components of an element lie: at a formula of their number, one behind the other within a
column, and inside the bytes of the element.
-/

namespace Gltf

theorem ComponentType.size_pos (c : ComponentType) : 0 < c.size := by
  cases c <;> decide

namespace AccessorType

theorem le_alignTo4 (n : Nat) : n ≤ alignTo4 n := Nat.le_add_right _ _

/-- The offset of a component: components follow each other, but a column of a matrix begins at the
next multiple of four. -/
def componentOffset (t : AccessorType) (size c : Nat) : Nat :=
  match t.order? with
  | none => c * size
  | some order => c / order * alignTo4 (order * size) + c % order * size

theorem components_pos (t : AccessorType) : 0 < t.components := by
  cases t <;> decide

theorem offsets_eq_map (t : AccessorType) (size : Nat) :
    t.offsets size = (List.range t.components).map (t.componentOffset size) := by
  cases t <;> rfl

@[simp] theorem length_offsets (t : AccessorType) (size : Nat) :
    (t.offsets size).length = t.components := by
  rw [offsets_eq_map, List.length_map, List.length_range]

@[simp] theorem componentOffset_zero (t : AccessorType) (size : Nat) :
    t.componentOffset size 0 = 0 := by
  cases t <;> simp [componentOffset, order?]

theorem componentOffset_matrix {t : AccessorType} {order : Nat} (h : t.order? = some order)
    (size c : Nat) :
    t.componentOffset size c = c / order * alignTo4 (order * size) + c % order * size := by
  rw [componentOffset, h]

theorem span_matrix {t : AccessorType} {order : Nat} (h : t.order? = some order) (size : Nat) :
    t.span size = (order - 1) * alignTo4 (order * size) + (order - 1) * size + size := by
  cases t <;> cases h <;> rfl

theorem components_matrix {t : AccessorType} {order : Nat} (h : t.order? = some order) :
    t.components = order * order := by
  cases t <;> cases h <;> rfl

theorem span_of_order?_eq_none {t : AccessorType} (h : t.order? = none) (size : Nat) :
    t.span size = (t.components - 1) * size + size := by
  cases t <;> cases h <;> rfl

/-- No component ends behind the last one. -/
theorem componentOffset_add_le_span (t : AccessorType) (size : Nat) {c : Nat}
    (hc : c < t.components) : t.componentOffset size c + size ≤ t.span size := by
  cases horder : t.order? with
  | none =>
      rw [span_of_order?_eq_none horder, componentOffset, horder]
      exact Nat.add_le_add_right (Nat.mul_le_mul_right _ (Nat.le_sub_one_of_lt hc)) _
  | some order =>
      rw [components_matrix horder] at hc
      have hpos : 0 < order := Nat.pos_of_mul_pos_right (Nat.zero_lt_of_lt hc)
      have hcolumn : c / order ≤ order - 1 := Nat.le_sub_one_of_lt (Nat.div_lt_of_lt_mul hc)
      have hrow : c % order ≤ order - 1 := Nat.le_sub_one_of_lt (Nat.mod_lt _ hpos)
      rw [span_matrix horder, componentOffset_matrix horder]
      exact Nat.add_le_add_right
        (Nat.add_le_add (Nat.mul_le_mul_right _ hcolumn) (Nat.mul_le_mul_right _ hrow)) _

theorem size_le_span (t : AccessorType) (size : Nat) : size ≤ t.span size := Nat.le_add_left _ _

theorem span_le_elementSize (t : AccessorType) (c : ComponentType) :
    t.span c.size ≤ t.elementSize c := by
  cases t <;> simp [elementSize, le_alignTo4]

end AccessorType

end Gltf
