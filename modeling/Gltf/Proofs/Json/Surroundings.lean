import Gltf.Proofs.Json.Keys
import Gltf.Reading.Finding
import Mathlib

/-!
A place in a JSON value, told by what surrounds it: the array or object that it stands in with what
is beside it, and so on outwards. Another value in the same place leaves keys and order as they are.
-/

namespace Gltf

/-- An array or an object around one value. -/
inductive Surround where
  | item (before after : List Json)
  | member (before : List (String × Json)) (key : String) (after : List (String × Json))

namespace Surround

def fill : Surround → Json → Json
  | item before after, j => .array (before ++ j :: after)
  | member before key after, j => .object (before ++ (key, j) :: after)

/-- The step to the value inside. -/
def step : Surround → Step
  | item before _ => .index before.length
  | member _ key _ => .key key

theorem fill_ne_null (s : Surround) (j : Json) : s.fill j ≠ .null := by
  cases s <;> simp [fill]

theorem keysDistinct_inside {s : Surround} {j : Json} (h : (s.fill j).KeysDistinct) :
    j.KeysDistinct := by
  cases s with
  | item before after => exact Json.KeysDistinct.array_iff.1 h j (by simp)
  | member before key after =>
      exact (Json.KeysDistinct.object_iff.1 h).2 (key, j) (by simp)

theorem nodup_keys {before after : List (String × Json)} {key : String} {j : Json}
    (h : ((member before key after).fill j).KeysDistinct) :
    ((before ++ (key, j) :: after).map (·.1)).Nodup :=
  (Json.KeysDistinct.object_iff.1 h).1

end Surround

/-- A value with all that surrounds it, from the outside in. -/
def Json.fill (surroundings : List Surround) (j : Json) : Json :=
  surroundings.foldr Surround.fill j

/-- The path of a place in the value at a path. -/
def Path.into (p : Path) (surroundings : List Surround) : Path :=
  { p with steps := p.steps ++ surroundings.map (·.step) }

theorem Path.into_nil (p : Path) : p.into [] = p := by
  simp [into]

theorem Path.into_cons (p : Path) (s : Surround) (surroundings : List Surround) :
    p.into (s :: surroundings) = (p.into [s]).into surroundings := by
  simp [into]

end Gltf
