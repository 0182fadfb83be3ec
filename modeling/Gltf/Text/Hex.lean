/-!
Numbers in hexadecimal digits.
-/

namespace Gltf.Text

/-- The least significant lower-case digits of a number, so many of them. -/
def hexDigits (width n : Nat) : List Char :=
  (List.range width).reverse.map fun i => Nat.digitChar (n / Nat.pow 16 i % 16)

@[simp] theorem hexDigits_length (width n : Nat) : (hexDigits width n).length = width := by
  simp [hexDigits]

end Gltf.Text
