import Gltf.Proofs.Resource.Attached
import Mathlib

/-!
What the decoding of primitives leaves of a document, primitive by primitive. Each content that the
decoder supplies for an accessor becomes a buffer and a view on it behind all that was there, and the
accessor is pointed at the last content supplied for it. All else stays as it was.
-/

namespace Gltf

theorem elementAt?_eq_none_iff {α : Type} {elements : List α} {index : Int} :
    elementAt? elements index = none ↔ ¬(0 ≤ index ∧ index < elements.length) := by
  rw [elementAt?]
  split_ifs with hneg
  · simp only [true_iff]
    omega
  · rw [List.getElem?_eq_none_iff]
    omega

namespace Draco

/-! ### Supplies -/

/-- Content for one of the accessors of a document. -/
structure Supply where
  accessor : Nat
  content : Bytes

namespace Supply

def buffer (s : Supply) : Buffer := { byteLength := s.content.length, data := some s.content }

/-- The view on the whole of a buffer with the content. -/
def view (s : Supply) (buffer : Nat) : BufferView :=
  { buffer, byteOffset := 0, byteLength := s.content.length }

end Supply

namespace Target

/-- What a target supplies to a document with `count` accessors. -/
def supply? (count : Nat) (t : Target) : Option Supply :=
  if 0 ≤ t.accessor ∧ t.accessor < count then t.content.map (⟨t.accessor.toNat, ·⟩) else none

/-- What is wrong with a target in a document with `count` accessors. -/
def problem? (count : Nat) (t : Target) : Option (Problem Int) :=
  if t.content = none then some (.noContent t.semantic)
  else if 0 ≤ t.accessor ∧ t.accessor < count then none
  else some (.noAccessor t.semantic t.accessor)

end Target

/-- An accessor before and after content is supplied to a document that has `views` buffer views. -/
inductive Wired (views : Nat) (supplies : List Supply) (i : Nat) (a : Accessor) : Accessor → Prop
  | kept (unsupplied : ∀ s ∈ supplies, s.accessor ≠ i) : Wired views supplies i a a
  /-- The last supply counts. -/
  | pointed {before after : List Supply} {s : Supply} (split : supplies = before ++ s :: after)
      (here : s.accessor = i) (last : ∀ s ∈ after, s.accessor ≠ i) :
      Wired views supplies i a
        { a with bufferView := some (views + before.length : Nat), byteOffset := 0 }

/-- A document before and after content is supplied to it. -/
structure Spliced (d d' : Document) (supplies : List Supply) : Prop where
  rest : d' = { d with
    accessors := d'.accessors, buffers := d'.buffers, bufferViews := d'.bufferViews }
  buffers : d'.buffers = d.buffers ++ supplies.map Supply.buffer
  bufferViews : d'.bufferViews =
    d.bufferViews ++ supplies.mapIdx fun k s => s.view (d.buffers.length + k)
  count : d'.accessors.length = d.accessors.length
  accessors : ∀ i a a', d.accessors[i]? = some a → d'.accessors[i]? = some a' →
    Wired d.bufferViews.length supplies i a a'

theorem Wired.trans {views : Nat} {supplies supplies' : List Supply} {i : Nat}
    {a a' a'' : Accessor} (h : Wired views supplies i a a')
    (h' : Wired (views + supplies.length) supplies' i a' a'') :
    Wired views (supplies ++ supplies') i a a'' := by
  cases h' with
  | kept hkept' =>
      cases h with
      | kept hkept => exact .kept fun s hs => (List.mem_append.1 hs).elim (hkept s) (hkept' s)
      | @pointed before after s split here last =>
          have hsplit : supplies ++ supplies' = before ++ s :: (after ++ supplies') := by
            rw [split, List.append_assoc, List.cons_append]
          exact .pointed hsplit here fun s hs => (List.mem_append.1 hs).elim (last s) (hkept' s)
  | @pointed before after s split here last =>
      have hview : views + supplies.length + before.length =
          views + (supplies ++ before).length := by
        rw [List.length_append, Nat.add_assoc]
      have hsplit : supplies ++ supplies' = (supplies ++ before) ++ s :: after := by
        rw [split, List.append_assoc]
      -- Whatever the accessor was pointed at before, it is now pointed at the later content.
      have hpointed : Wired views (supplies ++ supplies') i a
          { a with bufferView := some (views + (supplies ++ before).length : Nat), byteOffset := 0 } :=
        .pointed hsplit here last
      rw [hview]
      cases h with
      | kept _ => exact hpointed
      | pointed _ _ _ => exact hpointed

namespace Spliced

theorem length_bufferViews {d d' : Document} {supplies : List Supply} (h : Spliced d d' supplies) :
    d'.bufferViews.length = d.bufferViews.length + supplies.length := by
  rw [h.bufferViews, List.length_append, List.length_mapIdx]

theorem refl (d : Document) : Spliced d d [] where
  rest := rfl
  buffers := by simp
  bufferViews := by simp
  count := rfl
  accessors := by
    intro i a a' ha ha'
    rw [ha, Option.some.injEq] at ha'
    subst ha'
    exact .kept (by simp)

theorem trans {d d' d'' : Document} {supplies supplies' : List Supply}
    (h : Spliced d d' supplies) (h' : Spliced d' d'' supplies') :
    Spliced d d'' (supplies ++ supplies') where
  rest := by rw [h'.rest, h.rest]
  buffers := by rw [h'.buffers, h.buffers, List.append_assoc, List.map_append]
  bufferViews := by
    have hlength : d'.buffers.length = d.buffers.length + supplies.length := by
      rw [h.buffers, List.length_append, List.length_map]
    have hshift (k : Nat) : d.buffers.length + supplies.length + k =
        d.buffers.length + (k + supplies.length) := by omega
    rw [h'.bufferViews, h.bufferViews, List.append_assoc, List.mapIdx_append, hlength]
    simp only [hshift]
  count := h'.count.trans h.count
  accessors := by
    intro i a a'' ha ha''
    have hi : i < d'.accessors.length := by
      rw [h.count]
      exact (List.getElem?_eq_some_iff.1 ha).1
    have ha' := List.getElem?_eq_getElem hi
    refine (h.accessors i a _ ha ha').trans ?_
    rw [← h.length_bufferViews]
    exact h'.accessors i _ a'' ha' ha''

end Spliced

/-! ### One target after the other -/

theorem fill_of_supply? {d : Document} {t : Target} {s : Supply}
    (h : t.supply? d.accessors.length = some s) :
    (fill d t).2 = none ∧ Spliced d (fill d t).1 [s] := by
  obtain ⟨semantic, accessor, content⟩ := t
  rw [Target.supply?] at h
  split_ifs at h with hrange
  obtain ⟨content, rfl, rfl⟩ := Option.map_eq_some_iff.1 h
  obtain ⟨i, rfl⟩ := Int.eq_ofNat_of_zero_le hrange.1
  have hi : i < d.accessors.length := by simpa using hrange.2
  have hfound : elementAt? d.accessors (i : Int) = some d.accessors[i] := by
    rw [elementAt?_natCast, List.getElem?_eq_getElem hi]
  simp only [fill, hfound]
  refine ⟨trivial, rfl, rfl, rfl, List.length_set, ?_⟩
  intro k a a' ha ha'
  simp only [append, Int.toNat_natCast, List.getElem?_set] at ha'
  split_ifs at ha' with hk
  · subst hk
    rw [List.getElem?_eq_getElem hi, Option.some.injEq] at ha
    cases ha'
    rw [ha]
    have hsplit : [Supply.mk i content] = [] ++ Supply.mk i content :: [] := rfl
    exact .pointed hsplit rfl (by simp)
  · rw [ha, Option.some.injEq] at ha'
    subst ha'
    exact .kept (by simpa using hk)

theorem fill_of_not_supply? {d : Document} {t : Target}
    (h : t.supply? d.accessors.length = none) : (fill d t).1 = d := by
  rw [fill.eq_def]
  cases hcontent : t.content with
  | none => rfl
  | some content =>
      have hrange : ¬(0 ≤ t.accessor ∧ t.accessor < d.accessors.length) := by
        intro hrange
        rw [Target.supply?, if_pos hrange, hcontent] at h
        cases h
      simp only [elementAt?_eq_none_iff.2 hrange]

theorem spliced_fill (d : Document) (t : Target) :
    Spliced d (fill d t).1 (t.supply? d.accessors.length).toList := by
  cases h : t.supply? d.accessors.length with
  | none =>
      rw [fill_of_not_supply? h]
      exact .refl d
  | some s => exact (fill_of_supply? h).2

theorem problem_fill (d : Document) (t : Target) :
    (fill d t).2 = t.problem? d.accessors.length := by
  rw [fill.eq_def, Target.problem?]
  cases t.content with
  | none => rfl
  | some content =>
      rw [if_neg (Option.some_ne_none content)]
      cases hfound : elementAt? d.accessors t.accessor with
      | none => exact (if_neg (elementAt?_eq_none_iff.1 hfound)).symm
      | some a =>
          have hrange : 0 ≤ t.accessor ∧ t.accessor < d.accessors.length := by
            by_contra hrange
            rw [elementAt?_eq_none_iff.2 hrange] at hfound
            cases hfound
          exact (if_pos hrange).symm

theorem fillAll_cons (d : Document) (t : Target) (ts : List Target) :
    fillAll d (t :: ts) =
      ((fillAll (fill d t).1 ts).1, (fill d t).2.toList ++ (fillAll (fill d t).1 ts).2) := rfl

theorem filterMap_cons_eq_append {α β : Type} (f : α → Option β) (a : α) (l : List α) :
    (a :: l).filterMap f = (f a).toList ++ l.filterMap f := by
  rw [List.filterMap_eq_flatMap_toList, List.flatMap_cons, ← List.filterMap_eq_flatMap_toList]

theorem spliced_fillAll (d : Document) (ts : List Target) :
    Spliced d (fillAll d ts).1 (ts.filterMap (Target.supply? d.accessors.length)) := by
  induction ts generalizing d with
  | nil => exact .refl d
  | cons t ts ih =>
      have hfirst := spliced_fill d t
      have hrest := ih (fill d t).1
      rw [hfirst.count] at hrest
      rw [fillAll_cons, filterMap_cons_eq_append]
      exact hfirst.trans hrest

theorem problems_fillAll (d : Document) (ts : List Target) :
    (fillAll d ts).2 = ts.filterMap (Target.problem? d.accessors.length) := by
  induction ts generalizing d with
  | nil => rfl
  | cons t ts ih =>
      rw [fillAll_cons, filterMap_cons_eq_append, ih, problem_fill, (spliced_fill d t).count]

/-! ### One primitive after the other -/

/-- What came of a primitive. -/
inductive Outcome where
  /-- It is not compressed. -/
  | plain
  | refused (problem : BufferViewProblem Int)
  | failed (handed : Bytes) (text : String)
  | decoded (handed : Bytes) (c : Compression) (mesh : DecodedMesh)

namespace Outcome

def succeeded : Outcome → Bool
  | decoded _ _ _ => true
  | _ => false

/-- Whether the primitive is compressed and was not decoded. -/
def raised : Outcome → Bool
  | refused _ => true
  | failed _ _ => true
  | _ => false

/-- The bytes that the decoder was called with, if it was called. -/
def handed? : Outcome → Option Bytes
  | failed handed _ => some handed
  | decoded handed _ _ => some handed
  | _ => none

end Outcome

/-- A primitive with its place, and what came of it. -/
structure Attempt where
  place : Location
  primitive : MeshPrimitive
  outcome : Outcome

namespace Attempt

/-- The accessors that are filled, the indices first and then the attributes in their order. -/
def targets (a : Attempt) : List Target :=
  match a.outcome with
  | .decoded _ c mesh => Draco.targets a.primitive c mesh
  | _ => []

def supplies (count : Nat) (a : Attempt) : List Supply :=
  a.targets.filterMap (Target.supply? count)

def problems (count : Nat) (a : Attempt) : List (Problem Int) :=
  match a.outcome with
  | .refused problem => [.view problem]
  | .failed _ text => [.failed text]
  | _ => a.targets.filterMap (Target.problem? count)

end Attempt

variable {σ : Type}

/-- One primitive is tried on a document. -/
inductive Attempted (decode : Decoder (StateM σ)) (d : Document) (s : σ) : Attempt → σ → Prop
  | plain {place : Location} {p : MeshPrimitive} (uncompressed : compression? p = none) :
      Attempted decode d s ⟨place, p, .plain⟩ s
  | refused {place : Location} {p : MeshPrimitive} {c : Compression}
      {problem : BufferViewProblem Int} (compressed : compression? p = some c)
      (bytes : d.viewBytes c.bufferView = .error problem) :
      Attempted decode d s ⟨place, p, .refused problem⟩ s
  | failed {place : Location} {p : MeshPrimitive} {c : Compression} {handed : Bytes}
      {text : String} {s' : σ} (compressed : compression? p = some c)
      (bytes : d.viewBytes c.bufferView = .ok handed)
      (answer : (decode handed c.attributes).run s = (.error text, s')) :
      Attempted decode d s ⟨place, p, .failed handed text⟩ s'
  | decoded {place : Location} {p : MeshPrimitive} {c : Compression} {handed : Bytes}
      {mesh : DecodedMesh} {s' : σ} (compressed : compression? p = some c)
      (bytes : d.viewBytes c.bufferView = .ok handed)
      (answer : (decode handed c.attributes).run s = (.ok mesh, s')) :
      Attempted decode d s ⟨place, p, .decoded handed c mesh⟩ s'

/-- Primitives are tried in turn, each on the document as the ones before have left it. -/
inductive Run (decode : Decoder (StateM σ)) : Document → σ → List Attempt → Document → σ → Prop
  | nil (d : Document) (s : σ) : Run decode d s [] d s
  | cons {d d' : Document} {s s₁ s' : σ} {a : Attempt} {attempts : List Attempt}
      (first : Attempted decode d s a s₁)
      (rest : Run decode (fillAll d a.targets).1 s₁ attempts d' s') :
      Run decode d s (a :: attempts) d' s'

/-- The result with an attempt more. -/
def Result.after (r : Result) (a : Attempt) : Result where
  document := (fillAll r.document a.targets).1
  decoded := r.decoded + if a.outcome.succeeded then 1 else 0
  problems := r.problems ++ (a.problems r.document.accessors.length).map (a.place, ·)

theorem exists_attempted (decode : Decoder (StateM σ)) (place : Location) (r : Result)
    (p : MeshPrimitive) (s : σ) :
    ∃ outcome s', Attempted decode r.document s ⟨place, p, outcome⟩ s' ∧
      (decodePrimitive (some decode) place r p).run s = (r.after ⟨place, p, outcome⟩, s') := by
  cases hc : compression? p with
  | none =>
      refine ⟨.plain, s, .plain hc, ?_⟩
      have hafter : r.after ⟨place, p, .plain⟩ = r := by
        simp [Result.after, Attempt.targets, Attempt.problems, Outcome.succeeded, fillAll]
      rw [hafter, decodePrimitive.eq_def, hc]
      rfl
  | some c =>
      simp only [decodePrimitive, hc, decodeMesh]
      cases hbytes : r.document.viewBytes c.bufferView with
      | error problem => exact ⟨.refused problem, s, .refused hc hbytes, rfl⟩
      | ok handed =>
          simp only [run_bind]
          rcases hanswer : (decode handed c.attributes).run s with ⟨text | mesh, s'⟩
          · exact ⟨.failed handed text, s', .failed hc hbytes hanswer, rfl⟩
          · refine ⟨.decoded handed c mesh, s', .decoded hc hbytes hanswer, ?_⟩
            have hproblems := problems_fillAll r.document (targets p c mesh)
            simp only [Result.after, Attempt.problems, Attempt.targets, ← hproblems]
            rfl

theorem decoded_foldl_after (r : Result) (attempts : List Attempt) :
    (attempts.foldl Result.after r).decoded =
      r.decoded + attempts.countP (·.outcome.succeeded) := by
  induction attempts generalizing r with
  | nil => rfl
  | cons a attempts ih =>
      rw [List.foldl_cons, ih, List.countP_cons, Result.after, Nat.add_assoc, Nat.add_comm (ite ..)]

theorem problems_foldl_after (r : Result) (attempts : List Attempt) :
    (attempts.foldl Result.after r).problems = r.problems ++ attempts.flatMap fun a =>
      (a.problems r.document.accessors.length).map (a.place, ·) := by
  induction attempts generalizing r with
  | nil => simp
  | cons a attempts ih =>
      have hcount : (r.after a).document.accessors.length = r.document.accessors.length :=
        (spliced_fillAll r.document a.targets).count
      rw [List.foldl_cons, ih, hcount, List.flatMap_cons, Result.after, List.append_assoc]

/-- The primitives are tried in their order. -/
theorem exists_run (decode : Decoder (StateM σ)) (r : Result) (s : σ)
    (primitives : List (Location × MeshPrimitive)) :
    ∃ attempts s', Run decode r.document s attempts (attempts.foldl Result.after r).document s' ∧
      attempts.map (fun a => (a.place, a.primitive)) = primitives ∧
      (decodePrimitives (some decode) r primitives).run s =
        (attempts.foldl Result.after r, s') := by
  induction primitives generalizing r s with
  | nil => exact ⟨[], s, .nil _ _, rfl, rfl⟩
  | cons primitive primitives ih =>
      obtain ⟨place, p⟩ := primitive
      obtain ⟨outcome, s₁, hfirst, hstep⟩ := exists_attempted decode place r p s
      obtain ⟨attempts, s', hrest, hprimitives, hrun⟩ := ih (r.after ⟨place, p, outcome⟩) s₁
      refine ⟨⟨place, p, outcome⟩ :: attempts, s', .cons hfirst hrest, ?_, ?_⟩
      · rw [List.map_cons, hprimitives]
      · rw [decodePrimitives, run_bind, hstep]
        exact hrun

/-- What comes of all primitives, put together. -/
theorem exists_run_decodeAll (decode : Decoder (StateM σ)) (d : Document) (s : σ) :
    ∃ attempts d' s', Run decode d s attempts d' s' ∧
      attempts.map (fun a => (a.place, a.primitive)) = located d.meshes ∧
      (decodeAll (some decode) d).run s =
        (⟨d', attempts.countP (·.outcome.succeeded), attempts.flatMap fun a =>
          (a.problems d.accessors.length).map (a.place, ·)⟩, s') := by
  obtain ⟨attempts, s', hrun, hprimitives, hresult⟩ := exists_run decode ⟨d, 0, []⟩ s (located d.meshes)
  refine ⟨attempts, _, s', hrun, hprimitives, ?_⟩
  have hdecoded := decoded_foldl_after ⟨d, 0, []⟩ attempts
  have hproblems := problems_foldl_after ⟨d, 0, []⟩ attempts
  rw [Nat.zero_add] at hdecoded
  rw [List.nil_append] at hproblems
  rw [decodeAll, hresult, ← hdecoded, ← hproblems]

theorem Run.spliced {decode : Decoder (StateM σ)} {d d' : Document} {s s' : σ}
    {attempts : List Attempt} (h : Run decode d s attempts d' s') :
    Spliced d d' (attempts.flatMap (Attempt.supplies d.accessors.length)) := by
  induction h with
  | nil d s => exact .refl d
  | @cons d d' s s₁ s' a attempts _ _ ih =>
      have hfirst := spliced_fillAll d a.targets
      rw [hfirst.count] at ih
      exact hfirst.trans ih

end Draco

end Gltf
