/-!
Cutting texts at a separator character.
-/

namespace Gltf.Text

/-- The parts before and after the first separator, if there is one. -/
def cut (separator : Char) : List Char → Option (List Char × List Char)
  | [] => none
  | c :: cs =>
      if c = separator then some ([], cs)
      else (cut separator cs).map fun (before, after) => (c :: before, after)

/-- The parts between separators; a text without one is its only part. -/
def splitOn (separator : Char) : List Char → List (List Char)
  | [] => [[]]
  | c :: cs =>
      if c = separator then [] :: splitOn separator cs
      else
        match splitOn separator cs with
        | [] => [[c]]
        | part :: parts => (c :: part) :: parts

theorem cut_eq_some {separator : Char} {cs before after : List Char}
    (h : cut separator cs = some (before, after)) :
    cs = before ++ separator :: after ∧ separator ∉ before := by
  induction cs generalizing before with
  | nil => simp [cut] at h
  | cons c cs ih =>
      by_cases hc : c = separator
      · simp only [cut, hc, if_true, Option.some.injEq, Prod.mk.injEq] at h
        simp [← h.1, ← h.2, hc]
      · simp only [cut, hc, if_false, Option.map_eq_some_iff, Prod.exists, Prod.mk.injEq] at h
        obtain ⟨before', after', h', rfl, rfl⟩ := h
        have := ih h'
        simp [this.1, this.2, Ne.symm hc]

end Gltf.Text
