import Gltf.Text.Split
import Mathlib

/-!
Texts cut at a separator. The parts between separators are those of the library's lists, so a text
is its parts with separators between them, and no part holds a separator.
-/

namespace Gltf.Text

variable {separator : Char} {cs before after part : List Char}

theorem splitOn_eq (separator : Char) (cs : List Char) :
    splitOn separator cs = cs.splitOn separator := by
  induction cs with
  | nil => rfl
  | cons c cs ih =>
      simp only [splitOn, List.splitOn_cons_eq_if_modifyHead, beq_iff_eq, ih]
      split_ifs
      · rfl
      · cases hparts : cs.splitOn separator with
        | nil => exact absurd hparts (List.splitOn_ne_nil separator cs)
        | cons part parts => rfl

theorem notMem_of_mem_splitOn (h : part ∈ cs.splitOn separator) : separator ∉ part := by
  induction cs generalizing part with
  | nil =>
      rw [List.splitOn_nil, List.mem_singleton] at h
      exact h ▸ List.not_mem_nil
  | cons c cs ih =>
      rw [List.splitOn_cons_eq_if_modifyHead] at h
      split_ifs at h with hc
      · rcases List.mem_cons.1 h with rfl | h
        · exact List.not_mem_nil
        · exact ih h
      · cases hparts : cs.splitOn separator with
        | nil => exact absurd hparts (List.splitOn_ne_nil separator cs)
        | cons first parts =>
            rw [hparts, List.modifyHead_cons] at h
            rw [hparts] at ih
            rcases List.mem_cons.1 h with rfl | h
            · refine List.not_mem_cons_of_ne_of_not_mem ?_ (ih List.mem_cons_self)
              rintro rfl
              exact hc BEq.rfl
            · exact ih (List.mem_cons_of_mem _ h)

/-- A text is cut at its first separator. -/
theorem cut_append (h : separator ∉ before) (after : List Char) :
    cut separator (before ++ separator :: after) = some (before, after) := by
  induction before with
  | nil => simp [cut]
  | cons c before ih =>
      rw [List.mem_cons, not_or] at h
      rw [List.cons_append, cut, if_neg (Ne.symm h.1), ih h.2]
      rfl

end Gltf.Text
