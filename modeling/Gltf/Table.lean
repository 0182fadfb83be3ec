/-!
Tables: lists of pairs in which each key stands once. `put` keeps the place of a key that is there
already, so the order is that of first insertion.
-/

namespace Gltf

abbrev Table (κ α : Type) := List (κ × α)

namespace Table

variable {κ α : Type} [DecidableEq κ]

def get? (t : Table κ α) (k : κ) : Option α :=
  match t with
  | [] => none
  | (k', a) :: rest => if k' = k then some a else get? rest k

def put (t : Table κ α) (k : κ) (a : α) : Table κ α :=
  match t with
  | [] => [(k, a)]
  | (k', a') :: rest => if k' = k then (k, a) :: rest else (k', a') :: put rest k a

def erase (t : Table κ α) (k : κ) : Table κ α := t.filter fun entry => entry.1 ≠ k

def keys (t : Table κ α) : List κ := t.map (·.1)

def ofList (entries : List (κ × α)) : Table κ α :=
  entries.foldl (fun t entry => put t entry.1 entry.2) []

theorem get?_put (t : Table κ α) (k k' : κ) (a : α) :
    get? (put t k a) k' = if k = k' then some a else get? t k' := by
  induction t with
  | nil => simp [put, get?]
  | cons entry rest ih =>
      obtain ⟨k₀, a₀⟩ := entry
      by_cases h : k₀ = k
      · subst h
        by_cases h' : k₀ = k' <;> simp [put, get?, h']
      · by_cases h' : k₀ = k'
        · subst h'
          simp [put, get?, h, Ne.symm h]
        · simp [put, get?, h, h', ih]

theorem get?_erase (t : Table κ α) (k k' : κ) :
    get? (erase t k) k' = if k = k' then none else get? t k' := by
  induction t with
  | nil => simp [erase, get?]
  | cons entry rest ih =>
      obtain ⟨k₀, a₀⟩ := entry
      have ih' : get? (List.filter (fun entry => decide (entry.1 ≠ k)) rest) k' =
          if k = k' then none else get? rest k' := ih
      by_cases h : k₀ = k
      · subst h
        by_cases h' : k₀ = k' <;> simp_all [erase, get?]
      · by_cases h' : k₀ = k'
        · subst h'
          simp [erase, get?, h, Ne.symm h]
        · simp_all [erase, get?]

end Table

end Gltf
