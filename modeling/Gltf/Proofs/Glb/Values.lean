import Gltf.Glb.Value
import Gltf.Proofs.Glb.RoundTrip
import Gltf.Proofs.Json.Printed
import Mathlib

/-!
A value that is written to a container is read back from it: the JSON chunk holds the compact text
of the value, padded with blanks, and this text is parsed to the value.
-/

namespace Gltf.Glb

theorem documentText_of_ne_string {value : Json} (h : ∀ s, value ≠ .string s) :
    documentText value = value.compact := by
  cases value with
  | string s => exact absurd rfl (h s)
  | _ => rfl

/-- The parsed value is the one that was written, with its integers, floats and the order of its
keys. A string is excluded, since it is written as the text that it is. -/
theorem parse_read_writeValue {value : Json} {binary : Option Bytes}
    (hstring : ∀ s, value ≠ .string s) (printable : value.Printable Json.nestingLimit)
    (fits : (writeValue value binary).length < 0x100000000) :
    ∃ contents, read (writeValue value binary) = .ok contents ∧
      Json.parse contents.json = .ok value := by
  refine ⟨_, read_write fits, ?_⟩
  rw [documentText_of_ne_string hstring]
  exact Json.parse_append_spaces _ (Json.parse_compact printable)

def nestedValue : Json :=
  .object [("é\n", .array [.null, .bool true, .number (.int (-12)), .object []]),
    ("", .array [.number (.float (.ofDecimal true 1 (-7))), .string "\"\\"])]

theorem parse_read_writeValue_nested :
    (∀ s, nestedValue ≠ .string s) ∧ nestedValue.Printable Json.nestingLimit ∧
      (writeValue nestedValue none).length < 0x100000000 ∧
      ∃ contents, read (writeValue nestedValue none) = .ok contents ∧
        Json.parse contents.json = .ok nestedValue := by
  have hstring : ∀ s, nestedValue ≠ .string s := nofun
  have printable : nestedValue.Printable Json.nestingLimit := by
    refine .object (by decide) ?_
    simp only [List.forall_mem_cons]
    refine ⟨.array ?_, .array ?_, nofun⟩
    · simp only [List.forall_mem_cons]
      exact ⟨.null _, .bool _ _, .int _ (by decide), .object List.nodup_nil nofun, nofun⟩
    · simp only [List.forall_mem_cons]
      exact ⟨.float _ (by decide +kernel), .string _ _, nofun⟩
  have fits : (writeValue nestedValue none).length < 0x100000000 := by decide +kernel
  exact ⟨hstring, printable, fits, parse_read_writeValue hstring printable fits⟩

end Gltf.Glb
