import Gltf.Json.Coercion
import Gltf.Proofs.Binary64.Fields
import Mathlib

/-!
Integral targets take exactly the numbers that are integers in their range, however these are
written: an integer literal is itself, and any other number is the dyadic rational of its bits.
-/

namespace Gltf

/-- The exact value of a number in JSON. Infinities, NaNs and values of other kinds have none. -/
inductive Json.HasValue : Json → ℚ → Prop
  | int (n : ℤ) : HasValue (.number (.int n)) n
  | float {x : Binary64} {q : ℚ} (h : x.StandsFor q) : HasValue (.number (.float x)) q

variable {kind : NumberKind} {low high n : ℤ} {v : Json}

theorem Number.toInt?_eq_some_iff {number : Number} :
    number.toInt? = some n ↔ (Json.number number).HasValue n := by
  constructor
  · cases number with
    | int i =>
        rintro ⟨⟩
        exact .int n
    | float x =>
        intro h
        exact .float (Binary64.standsFor_iff.2 (Binary64.toInt?_eq_some_iff.1 h))
  · generalize hq : (n : ℚ) = q
    rintro (i | h)
    · rw [Int.cast_inj.1 hq]
      rfl
    · subst hq
      exact Binary64.toInt?_eq_some_iff.2 (Binary64.standsFor_iff.1 h)

/-- What an integral target takes is an integer. -/
theorem Json.coerce?_eq_some_iff (hrange : kind.range = .integers low high) {found : Number} :
    v.coerce? kind = some found ↔ ∃ n, found = .int n ∧ v.HasValue n ∧ low ≤ n ∧ n ≤ high := by
  constructor
  · intro h
    cases v with
    | number number =>
        simp only [Json.coerce?, Number.coerce?, hrange] at h
        split at h
        · rename_i n hn
          split_ifs at h with hbounds
          cases h
          exact ⟨n, rfl, Number.toInt?_eq_some_iff.1 hn, hbounds⟩
        · cases h
    | _ => cases h
  · rintro ⟨n, rfl, hvalue, hbounds⟩
    cases v with
    | number number =>
        simp only [Json.coerce?, Number.coerce?, hrange, Number.toInt?_eq_some_iff.2 hvalue]
        rw [if_pos hbounds]
    | _ => cases hvalue

/-- Integral targets are exact. What they take is the integer that a value is, if it is one in their
range, and they take nothing else; to take it once more changes nothing, and every integral target
with the integer in its range takes the same. -/
theorem Json.coerces_exactly (hrange : kind.range = .integers low high) (v : Json) :
    (∀ n : ℤ, v.coerce? kind = some (.int n) ↔ v.HasValue n ∧ low ≤ n ∧ n ≤ high) ∧
    (v.coerce? kind = none ↔ ∀ n : ℤ, v.HasValue n → n < low ∨ high < n) ∧
    ∀ found, v.coerce? kind = some found →
      (Json.number found).coerce? kind = some found ∧
      ∃ n : ℤ, found = .int n ∧ ∀ kind' low' high', NumberKind.range kind' = .integers low' high' →
        low' ≤ n → n ≤ high' → v.coerce? kind' = some found := by
  refine ⟨fun n => ?_, ?_, ?_⟩
  · rw [coerce?_eq_some_iff hrange]
    simp
  · rw [Option.eq_none_iff_forall_ne_some]
    constructor
    · intro h n hvalue
      by_contra hbounds
      rw [not_or, not_lt, not_lt] at hbounds
      exact h _ ((coerce?_eq_some_iff hrange).2 ⟨n, rfl, hvalue, hbounds⟩)
    · rintro h found hfound
      obtain ⟨n, -, hvalue, least, greatest⟩ := (coerce?_eq_some_iff hrange).1 hfound
      rcases h n hvalue with hlow | hhigh
      · exact absurd least (not_le.2 hlow)
      · exact absurd greatest (not_le.2 hhigh)
  · intro found hfound
    obtain ⟨n, rfl, hvalue, hbounds⟩ := (coerce?_eq_some_iff hrange).1 hfound
    refine ⟨(coerce?_eq_some_iff hrange).2 ⟨n, rfl, .int n, hbounds⟩, n, rfl, ?_⟩
    intro kind' low' high' hrange' least greatest
    exact (coerce?_eq_some_iff hrange').2 ⟨n, rfl, hvalue, least, greatest⟩

/-- The least number past the signed integers of 64 bits, in the bits of a float. It is an unsigned
integer of 64 bits and no signed one. -/
theorem Json.coerces_exactly_two_pow_63 :
    let v : Json := .number (.float ⟨0x43e0000000000000⟩)
    NumberKind.uint64.range = .integers 0 0xffffffffffffffff ∧
    NumberKind.int64.range = .integers (-0x8000000000000000) 0x7fffffffffffffff ∧
    v.coerce? .uint64 = some (.int 0x8000000000000000) ∧
    v.HasValue (0x8000000000000000 : ℤ) ∧
    (Json.number (.int 0x8000000000000000)).coerce? .uint64 = some (.int 0x8000000000000000) ∧
    ∀ n : ℤ, v.HasValue n → n < -0x8000000000000000 ∨ 0x7fffffffffffffff < n := by
  intro v
  have hunsigned : v.coerce? .uint64 = some (.int 0x8000000000000000) := by decide +kernel
  have hsigned : v.coerce? .int64 = none := by decide +kernel
  exact ⟨rfl, rfl, hunsigned, (((@coerces_exactly .uint64 _ _ rfl v).1 _).1 hunsigned).1,
    ((@coerces_exactly .uint64 _ _ rfl v).2.2 _ hunsigned).1,
    (@coerces_exactly .int64 _ _ rfl v).2.1.1 hsigned⟩

example : (Json.number (.float ⟨0x8000000000000000⟩)).coerce? .int8 = some (.int 0) := by
  decide +kernel

end Gltf
