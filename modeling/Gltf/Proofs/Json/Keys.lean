import Gltf.Json
import Mathlib

/-!
Values inside values, and values whose objects have each key once, at every depth.
-/

namespace Gltf.Json

/-- `Contains j inner`: `inner` is `j` or stands inside it. -/
inductive Contains : Json → Json → Prop
  | self (j : Json) : Contains j j
  | item {items : List Json} {v inner : Json} (hv : v ∈ items) (h : Contains v inner) :
      Contains (.array items) inner
  | member {members : List (String × Json)} {m : String × Json} {inner : Json} (hm : m ∈ members)
      (h : Contains m.2 inner) : Contains (.object members) inner

/-- The keys of each object are distinct. -/
inductive KeysDistinct : Json → Prop
  | null : KeysDistinct .null
  | bool (b : Bool) : KeysDistinct (.bool b)
  | number (n : Number) : KeysDistinct (.number n)
  | string (s : String) : KeysDistinct (.string s)
  | array {items : List Json} (items_distinct : ∀ v ∈ items, KeysDistinct v) :
      KeysDistinct (.array items)
  | object {members : List (String × Json)} (keys : (members.map (·.1)).Nodup)
      (values : ∀ m ∈ members, KeysDistinct m.2) : KeysDistinct (.object members)

namespace KeysDistinct

attribute [simp] null bool number string

@[simp] theorem array_iff {items : List Json} :
    KeysDistinct (.array items) ↔ ∀ v ∈ items, KeysDistinct v := by
  constructor
  · intro h
    cases h with
    | array items_distinct => exact items_distinct
  · exact .array

@[simp] theorem object_iff {members : List (String × Json)} :
    KeysDistinct (.object members) ↔
      (members.map (·.1)).Nodup ∧ ∀ m ∈ members, KeysDistinct m.2 := by
  constructor
  · intro h
    cases h with
    | object keys values => exact ⟨keys, values⟩
  · rintro ⟨keys, values⟩
    exact .object keys values

end KeysDistinct

end Gltf.Json
