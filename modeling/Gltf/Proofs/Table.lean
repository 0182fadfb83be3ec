import Gltf.Table
import Mathlib

/-!
What is in a table: an entry that is found, and what `put` leaves of the entries and their keys.
Entries with distinct keys are put one behind the other, so they are a table as they stand.
-/

namespace Gltf.Table

variable {κ α : Type} [DecidableEq κ] {t : Table κ α} {k : κ} {a : α}

theorem mem_of_get? (h : get? t k = some a) : (k, a) ∈ t := by
  induction t with
  | nil => cases h
  | cons entry rest ih =>
      obtain ⟨k', a'⟩ := entry
      rw [get?] at h
      split_ifs at h with hkey
      · cases h
        exact hkey ▸ List.mem_cons_self
      · exact List.mem_cons_of_mem _ (ih h)

theorem mem_put {e : κ × α} (h : e ∈ put t k a) : e = (k, a) ∨ e ∈ t := by
  induction t with
  | nil => exact .inl (List.mem_singleton.1 h)
  | cons entry rest ih =>
      obtain ⟨k', a'⟩ := entry
      rw [put] at h
      split_ifs at h with hkey
      · rcases List.mem_cons.1 h with rfl | h
        · exact .inl rfl
        · exact .inr (List.mem_cons_of_mem _ h)
      · rcases List.mem_cons.1 h with rfl | h
        · exact .inr List.mem_cons_self
        · exact (ih h).imp_right (List.mem_cons_of_mem _)

theorem keys_put_of_mem (h : k ∈ t.map (·.1)) : (put t k a).map (·.1) = t.map (·.1) := by
  induction t with
  | nil => cases h
  | cons entry rest ih =>
      obtain ⟨k', a'⟩ := entry
      rw [put]
      split_ifs with hkey
      · rw [List.map_cons, List.map_cons, hkey]
      · have hrest : k ∈ rest.map (·.1) := by
          rcases List.mem_cons.1 h with heq | hrest
          · exact absurd heq.symm hkey
          · exact hrest
        rw [List.map_cons, List.map_cons, ih hrest]

theorem erase_cons (entry : κ × α) (rest : Table κ α) (k : κ) :
    erase (entry :: rest) k = if entry.1 = k then erase rest k else entry :: erase rest k := by
  rw [erase, List.filter_cons]
  by_cases h : entry.1 = k
  · simp [erase, h]
  · simp [erase, h]

theorem erase_put (t : Table κ α) (k k' : κ) (a : α) :
    erase (put t k a) k' = if k = k' then erase t k' else put (erase t k') k a := by
  induction t with
  | nil => rw [put, erase_cons]; rfl
  | cons entry rest ih =>
      obtain ⟨k₀, a₀⟩ := entry
      rw [put, erase_cons]
      by_cases h₀ : k₀ = k
      · subst h₀
        rw [if_pos rfl, erase_cons]
        split_ifs
        · rfl
        · rw [put, if_pos rfl]
      · rw [if_neg h₀, erase_cons, ih]
        by_cases h' : k₀ = k'
        · simp only [if_pos h']
        · rw [if_neg h', if_neg h', put, if_neg h₀]
          split_ifs <;> rfl

/-! ### Distinct keys -/

theorem get?_eq_none_iff : get? t k = none ↔ k ∉ t.map (·.1) := by
  induction t with
  | nil => simp [get?]
  | cons entry rest ih =>
      obtain ⟨k', a'⟩ := entry
      rw [get?, List.map_cons, List.mem_cons, not_or, ← ih]
      split_ifs with hkey
      · simp [hkey]
      · simp [Ne.symm hkey]

theorem get?_of_mem (hkeys : (t.map (·.1)).Nodup) (h : (k, a) ∈ t) : get? t k = some a := by
  induction t with
  | nil => cases h
  | cons entry rest ih =>
      obtain ⟨k', a'⟩ := entry
      rw [List.map_cons, List.nodup_cons] at hkeys
      rw [get?]
      rcases List.mem_cons.1 h with heq | hrest
      · cases heq
        exact if_pos rfl
      · have hne : k' ≠ k := by
          rintro rfl
          exact hkeys.1 (List.mem_map.2 ⟨_, hrest, rfl⟩)
        rw [if_neg hne]
        exact ih hkeys.2 hrest

theorem put_of_notMem (h : k ∉ t.map (·.1)) : put t k a = t ++ [(k, a)] := by
  induction t with
  | nil => rfl
  | cons entry rest ih =>
      obtain ⟨k', a'⟩ := entry
      rw [List.map_cons, List.mem_cons, not_or] at h
      rw [put, if_neg (Ne.symm h.1), ih h.2, List.cons_append]

theorem put_comm {k' : κ} (a a' : α) (hne : k ≠ k') (hk : k ∈ t.map (·.1)) :
    put (put t k a) k' a' = put (put t k' a') k a := by
  induction t with
  | nil => cases hk
  | cons entry rest ih =>
      obtain ⟨k₀, a₀⟩ := entry
      by_cases h : k₀ = k
      · subst h
        simp only [put, if_pos, if_neg hne]
      · have hrest : k ∈ rest.map (·.1) := by
          rcases List.mem_cons.1 hk with heq | hrest
          · exact absurd heq.symm h
          · exact hrest
        by_cases h' : k₀ = k'
        · subst h'
          simp only [put, if_neg h, if_pos]
        · simp only [put, if_neg h, if_neg h', ih hrest]

theorem mem_keys_put {k' : κ} (a : α) (hk : k ∈ t.map (·.1)) : k ∈ (put t k' a).map (·.1) := by
  by_cases hk' : k' ∈ t.map (·.1)
  · rwa [keys_put_of_mem hk']
  · rw [put_of_notMem hk', List.map_append]
    exact List.mem_append_left _ hk

/-- The table with further entries put into it in their order. -/
def putAll (t : Table κ α) (entries : List (κ × α)) : Table κ α :=
  entries.foldl (fun t e => put t e.1 e.2) t

@[simp] theorem putAll_nil (t : Table κ α) : putAll t [] = t := rfl

@[simp] theorem putAll_cons (t : Table κ α) (e : κ × α) (entries : List (κ × α)) :
    putAll t (e :: entries) = putAll (put t e.1 e.2) entries := rfl

theorem mem_putAll {entries : List (κ × α)} {e : κ × α} (h : e ∈ putAll t entries) :
    e ∈ t ∨ e ∈ entries := by
  induction entries generalizing t with
  | nil => exact .inl h
  | cons e' entries ih =>
      rw [putAll_cons] at h
      rcases ih h with hput | hmem
      · rcases mem_put hput with rfl | hold
        · exact .inr List.mem_cons_self
        · exact .inl hold
      · exact .inr (List.mem_cons_of_mem _ hmem)

theorem nodup_keys_put (h : (t.map (·.1)).Nodup) (k : κ) (a : α) :
    ((put t k a).map (·.1)).Nodup := by
  by_cases hk : k ∈ t.map (·.1)
  · rwa [keys_put_of_mem hk]
  · rw [put_of_notMem hk, List.map_append, List.nodup_append']
    refine ⟨h, by simp, ?_⟩
    intro k' hk' hnew
    obtain rfl : k' = k := by simpa using hnew
    exact hk hk'

theorem nodup_keys_putAll (h : (t.map (·.1)).Nodup) (entries : List (κ × α)) :
    ((putAll t entries).map (·.1)).Nodup := by
  induction entries generalizing t with
  | nil => exact h
  | cons e entries ih => exact ih (nodup_keys_put h e.1 e.2)

theorem ofList_eq_putAll (entries : List (κ × α)) : ofList entries = putAll [] entries := rfl

/-- Entries with new and distinct keys go behind what is there. -/
theorem putAll_of_nodup {entries : List (κ × α)} (h : ((t ++ entries).map (·.1)).Nodup) :
    putAll t entries = t ++ entries := by
  induction entries generalizing t with
  | nil => simp
  | cons e entries ih =>
      have hnew : e.1 ∉ t.map (·.1) := by
        rw [List.map_append, List.nodup_append'] at h
        intro he
        exact h.2.2 he (by simp)
      rw [putAll_cons, put_of_notMem hnew, ih (by simpa using h), List.append_assoc,
        List.singleton_append]

theorem nodup_keys_ofList (entries : List (κ × α)) : ((ofList entries).map (·.1)).Nodup :=
  nodup_keys_putAll (by simp) entries

theorem ofList_of_nodup {entries : List (κ × α)} (h : (entries.map (·.1)).Nodup) :
    ofList entries = entries := by
  rw [ofList_eq_putAll, putAll_of_nodup h, List.nil_append]

theorem get?_putAll_of_notMem {entries : List (κ × α)} (h : k ∉ entries.map (·.1)) :
    get? (putAll t entries) k = get? t k := by
  induction entries generalizing t with
  | nil => rfl
  | cons e entries ih =>
      rw [List.map_cons, List.mem_cons, not_or] at h
      rw [putAll_cons, ih h.2, get?_put, if_neg (Ne.symm h.1)]

/-- A key that is put with one value only has that value. -/
theorem get?_putAll_of_unique {entries : List (κ × α)} (h : (k, a) ∈ entries)
    (hunique : ∀ a', (k, a') ∈ entries → a' = a) : get? (putAll t entries) k = some a := by
  induction entries generalizing t with
  | nil => cases h
  | cons e entries ih =>
      obtain ⟨k', a'⟩ := e
      rw [putAll_cons]
      by_cases hrest : k ∈ entries.map (·.1)
      · obtain ⟨⟨_, b⟩, hb, rfl⟩ := List.mem_map.1 hrest
        have hab : b = a := hunique b (List.mem_cons_of_mem _ hb)
        subst hab
        exact ih hb fun a' ha' => hunique a' (List.mem_cons_of_mem _ ha')
      · have hhead : (k, a) = (k', a') := by
          rcases List.mem_cons.1 h with heq | hmem
          · exact heq
          · exact absurd (List.mem_map.2 ⟨_, hmem, rfl⟩) hrest
        cases hhead
        rw [get?_putAll_of_notMem hrest, get?_put, if_pos rfl]

theorem keys_putAll_of_subset {entries : List (κ × α)}
    (h : ∀ e ∈ entries, e.1 ∈ t.map (·.1)) : (putAll t entries).map (·.1) = t.map (·.1) := by
  induction entries generalizing t with
  | nil => rfl
  | cons e entries ih =>
      have hkeys : (put t e.1 e.2).map (·.1) = t.map (·.1) :=
        keys_put_of_mem (h e List.mem_cons_self)
      rw [putAll_cons, ih (by
        intro e' he'
        rw [hkeys]
        exact h e' (List.mem_cons_of_mem _ he')), hkeys]

/-- With distinct keys, a map that only one key passes gives at most one result. -/
theorem filterMap_of_key {β : Type} {f : κ × α → Option β} (hkeys : (t.map (·.1)).Nodup)
    (hf : ∀ e ∈ t, e.1 ≠ k → f e = none) :
    t.filterMap f = ((get? t k).bind fun a => f (k, a)).toList := by
  induction t with
  | nil => rfl
  | cons entry rest ih =>
      obtain ⟨k', a'⟩ := entry
      rw [List.map_cons, List.nodup_cons] at hkeys
      have hrest := ih hkeys.2 fun e he => hf e (List.mem_cons_of_mem _ he)
      rw [get?]
      split_ifs with hkey
      · subst hkey
        have hnone : get? rest k' = none := get?_eq_none_iff.2 hkeys.1
        rw [hnone] at hrest
        cases hvalue : f (k', a') <;> simp [hvalue, hrest]
      · rw [List.filterMap_cons, hf (k', a') List.mem_cons_self hkey, hrest]

/-! ### Other orders -/

theorem get?_perm {t' : Table κ α} (hkeys : (t.map (·.1)).Nodup) (h : t.Perm t') :
    get? t k = get? t' k := by
  cases hfound : get? t' k with
  | none => rwa [get?_eq_none_iff, (h.map _).mem_iff, ← get?_eq_none_iff]
  | some a => exact get?_of_mem hkeys (h.mem_iff.2 (mem_of_get? hfound))

/-- With distinct keys, what only one key passes is the same in any order. -/
theorem filterMap_perm_of_key {β : Type} {t' : Table κ α} {f : κ × α → Option β}
    (hkeys : (t.map (·.1)).Nodup) (h : t.Perm t') (hf : ∀ e : κ × α, e.1 ≠ k → f e = none) :
    t.filterMap f = t'.filterMap f := by
  rw [filterMap_of_key hkeys fun e _ => hf e,
    filterMap_of_key ((h.map _).nodup_iff.1 hkeys) fun e _ => hf e, get?_perm hkeys h]

/-- Entries for keys that are there may be put in any order, if no key has two. -/
theorem putAll_perm {entries entries' : List (κ × α)} (h : entries.Perm entries')
    (hunique : ∀ e ∈ entries, ∀ e' ∈ entries, e.1 = e'.1 → e = e')
    (hknown : ∀ e ∈ entries, e.1 ∈ t.map (·.1)) : putAll t entries = putAll t entries' := by
  induction h generalizing t with
  | nil => rfl
  | cons e _ ih =>
      refine ih (fun e₁ h₁ e₂ h₂ => ?_) fun e' he' => ?_
      · exact hunique e₁ (List.mem_cons_of_mem _ h₁) e₂ (List.mem_cons_of_mem _ h₂)
      · exact mem_keys_put e.2 (hknown e' (List.mem_cons_of_mem _ he'))
  | swap e e' entries =>
      have hswap : put (put t e'.1 e'.2) e.1 e.2 = put (put t e.1 e.2) e'.1 e'.2 := by
        by_cases hkey : e'.1 = e.1
        · rw [hunique e' (by simp) e (by simp) hkey]
        · exact put_comm _ _ hkey (hknown e' (by simp))
      simp only [putAll_cons, hswap]
  | trans h _ ih ih' =>
      rw [ih hunique hknown, ih' (fun e₁ h₁ e₂ h₂ => ?_) fun e he => ?_]
      · exact hunique e₁ (h.mem_iff.2 h₁) e₂ (h.mem_iff.2 h₂)
      · exact hknown e (h.mem_iff.2 he)

/-! ### Two tables with the same keys -/

/-- Entries of the same key, with values that belong together. -/
def Keyed {β : Type} (R : κ → α → β → Prop) (e : κ × α) (e' : κ × β) : Prop :=
  e.1 = e'.1 ∧ R e.1 e.2 e'.2

section
variable {β : Type} {R : κ → α → β → Prop} {t' : Table κ β}

omit [DecidableEq κ] in
theorem forall₂_keyed_iff :
    List.Forall₂ (Keyed R) t t' ↔
      t.map (·.1) = t'.map (·.1) ∧ ∀ pair ∈ t.zip t', R pair.1.1 pair.1.2 pair.2.2 := by
  induction t generalizing t' with
  | nil => cases t' <;> simp
  | cons e t ih =>
      cases t' with
      | nil => simp
      | cons e' t' =>
          simp only [List.forall₂_cons, ih, Keyed, List.map_cons, List.cons.injEq, List.zip_cons_cons,
            List.forall_mem_cons]
          tauto

theorem forall₂_put {b : β} (h : List.Forall₂ (Keyed R) t t') (hab : R k a b) :
    List.Forall₂ (Keyed R) (put t k a) (put t' k b) := by
  induction h with
  | nil => exact .cons ⟨rfl, hab⟩ .nil
  | @cons e e' t t' he ht ih =>
      rw [put, put, ← he.1]
      split_ifs
      · exact .cons ⟨rfl, hab⟩ ht
      · exact .cons ⟨rfl, he.2⟩ ih

end

end Gltf.Table
