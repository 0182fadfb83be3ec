import Gltf.Json.Coercion
import Gltf.Proofs.Binary64.Integers
import Mathlib

/-!
The same document written in another way: with the members of its objects in another order, or with
integers as floats of the same value. Numbers that are the same in this sense are the same for every
target.
-/

namespace Gltf

/-- What may be different in another way to write a document. -/
structure Variation where
  /-- Members stand in another order. -/
  reorders : Bool
  /-- Integers are floats of the same value. -/
  retypes : Bool

namespace Variation

def reordering : Variation := ⟨true, false⟩

def retyping : Variation := ⟨false, true⟩

variable {α β γ δ : Type} {v : Variation}

/-! ### Lists in another order -/

/-- The same elements, and in the same order unless the order may be another. -/
def Ordered (v : Variation) (l l' : List α) : Prop :=
  l.Perm l' ∧ (v.reorders = false → l = l')

namespace Ordered

theorem refl (v : Variation) (l : List α) : v.Ordered l l := ⟨.refl l, fun _ => rfl⟩

theorem of_perm {l l' : List α} (hv : v.reorders = true) (h : l.Perm l') : v.Ordered l l' :=
  ⟨h, fun hno => absurd (hno.symm.trans hv) Bool.false_ne_true⟩

theorem trans {l l' l'' : List α} (h : v.Ordered l l') (h' : v.Ordered l' l'') :
    v.Ordered l l'' :=
  ⟨h.1.trans h'.1, fun hv => (h.2 hv).trans (h'.2 hv)⟩

theorem append {l l' m m' : List α} (h : v.Ordered l l') (h' : v.Ordered m m') :
    v.Ordered (l ++ m) (l' ++ m') :=
  ⟨h.1.append h'.1, fun hv => by rw [h.2 hv, h'.2 hv]⟩

theorem map {l l' : List α} (h : v.Ordered l l') (f : α → β) : v.Ordered (l.map f) (l'.map f) :=
  ⟨h.1.map f, fun hv => by rw [h.2 hv]⟩

theorem filterMap {l l' : List α} (h : v.Ordered l l') (f : α → Option β) :
    v.Ordered (l.filterMap f) (l'.filterMap f) :=
  ⟨h.1.filterMap f, fun hv => by rw [h.2 hv]⟩

theorem flatMap {l l' : List α} (h : v.Ordered l l') (f : α → List β) :
    v.Ordered (l.flatMap f) (l'.flatMap f) :=
  ⟨h.1.flatMap_right f, fun hv => by rw [h.2 hv]⟩

end Ordered

/-- Elements that belong together two by two, up to their order. -/
def Pairs (v : Variation) (R : α → β → Prop) (l : List α) (l' : List β) : Prop :=
  ∃ mid, List.Forall₂ R l mid ∧ v.Ordered mid l'

namespace Pairs

variable {R : α → β → Prop}

theorem of_forall₂ {l : List α} {l' : List β} (h : List.Forall₂ R l l') : v.Pairs R l l' :=
  ⟨l', h, .refl v l'⟩

theorem nil : v.Pairs R [] [] := of_forall₂ .nil

theorem reorder {l : List α} {l' l'' : List β} (h : v.Pairs R l l') (h' : v.Ordered l' l'') :
    v.Pairs R l l'' := by
  obtain ⟨mid, hpairs, horder⟩ := h
  exact ⟨mid, hpairs, horder.trans h'⟩

theorem append {l m : List α} {l' m' : List β} (h : v.Pairs R l l') (h' : v.Pairs R m m') :
    v.Pairs R (l ++ m) (l' ++ m') := by
  obtain ⟨mid, hpairs, horder⟩ := h
  obtain ⟨mid', hpairs', horder'⟩ := h'
  exact ⟨mid ++ mid', List.rel_append hpairs hpairs', horder.append horder'⟩

/-- What comes of pairs pairwise. -/
theorem flatMap {S : γ → δ → Prop} {f : α → List γ} {g : β → List δ} {l : List α} {l' : List β}
    (h : List.Forall₂ R l l') (hfg : ∀ a b, R a b → v.Pairs S (f a) (g b)) :
    v.Pairs S (l.flatMap f) (l'.flatMap g) := by
  induction h with
  | nil => exact nil
  | cons hab _ ih => exact (hfg _ _ hab).append ih

theorem map {S : γ → δ → Prop} {f : α → γ} {g : β → δ} {l : List α} {l' : List β}
    (h : v.Pairs R l l') (hfg : ∀ a b, R a b → S (f a) (g b)) :
    v.Pairs S (l.map f) (l'.map g) := by
  obtain ⟨mid, hpairs, horder⟩ := h
  refine ⟨mid.map g, ?_, horder.map g⟩
  rw [List.forall₂_map_left_iff, List.forall₂_map_right_iff]
  exact hpairs.imp hfg

theorem isEmpty_eq {l : List α} {l' : List β} (h : v.Pairs R l l') : l.isEmpty = l'.isEmpty := by
  obtain ⟨mid, hpairs, horder⟩ := h
  rw [← horder.1.isEmpty_eq]
  cases hpairs <;> rfl

end Pairs

end Variation

/-! ### Numbers -/

/-- The same number, or a float for an integer. -/
inductive Number.Varies (v : Variation) : Number → Number → Prop
  | same (n : Number) : Varies v n n
  | retyped {n : Int} {x : Binary64} (allowed : v.retypes = true) (finite : x.isFinite = true)
      (value : x.value = n) (zero : n = 0 → x.isNegative = false) : Varies v (.int n) (.float x)

namespace Number.Varies

variable {v : Variation} {n n' : Number}

theorem toInt?_eq (h : n.Varies v n') : n.toInt? = n'.toInt? := by
  cases h with
  | same => rfl
  | retyped _ finite value _ => exact (Binary64.toInt?_eq_some_iff.2 ⟨finite, value⟩).symm

theorem toFloat_eq (h : n.Varies v n') : n.toFloat = n'.toFloat := by
  cases h with
  | same => rfl
  | retyped _ finite value zero => exact Binary64.ofInt_eq finite value zero

/-- No target tells the two apart. -/
theorem coerce?_eq (h : n.Varies v n') (kind : NumberKind) : n.coerce? kind = n'.coerce? kind := by
  rw [Number.coerce?, Number.coerce?, h.toInt?_eq, h.toFloat_eq]

theorem eq_of_not_retypes (h : n.Varies v n') (hv : v.retypes = false) : n = n' := by
  cases h with
  | same => rfl
  | retyped allowed _ _ _ => exact absurd (hv.symm.trans allowed) Bool.false_ne_true

end Number.Varies

/-! ### Values -/

mutual

/-- The same value written in another way. -/
inductive Json.Varies (v : Variation) : Json → Json → Prop
  | null : Varies v .null .null
  | bool (b : Bool) : Varies v (.bool b) (.bool b)
  | number {n n' : Number} (h : n.Varies v n') : Varies v (.number n) (.number n')
  | string (s : String) : Varies v (.string s) (.string s)
  | array {items items' : List Json} (h : List.Forall₂ (Json.Varies v) items items') :
      Varies v (.array items) (.array items')
  | object {members mid members' : List (String × Json)}
      (h : List.Forall₂ (Json.MemberVaries v) members mid) (order : v.Ordered mid members') :
      Varies v (.object members) (.object members')

inductive Json.MemberVaries (v : Variation) : String × Json → String × Json → Prop
  | mk (key : String) {j j' : Json} (h : j.Varies v j') : MemberVaries v (key, j) (key, j')

end

namespace Json.Varies

variable {v : Variation} {j j' : Json}

theorem eq_null_iff (h : j.Varies v j') : j = .null ↔ j' = .null := by
  cases h <;> simp

theorem kind_eq (h : j.Varies v j') (hv : v.retypes = false) : j.kind = j'.kind := by
  cases h with
  | number h => rw [h.eq_of_not_retypes hv]
  | _ => rfl

end Json.Varies

namespace Json.MemberVaries

variable {v : Variation} {m m' : String × Json}

theorem key_eq (h : MemberVaries v m m') : m.1 = m'.1 := by
  cases h
  rfl

theorem value (h : MemberVaries v m m') : m.2.Varies v m'.2 := by
  cases h with
  | mk _ h => exact h

end Json.MemberVaries

end Gltf
