import Gltf.Proofs.Resource.Splices
import Mathlib

/-!
What becomes of a document while its compressed buffer views are decoded. Each view either has one
problem and changes nothing, or it has none and changes the data of its own buffer. So the buffers
differ afterwards in their data only, and only those that decoded views belong to.
-/

namespace Gltf

namespace Meshopt

/-! ### One view -/

/-- The result before and after the view at an index. A compressed view is told of once and leaves
the buffers alone, or it is not told of and its buffer has other data. -/
inductive Atomic (configured : Bool) (i : ℕ) (view : BufferView) (r : Result) : Result → Prop
  | plain (uncompressed : compression? view = none) : Atomic configured i view r r
  | told {problem : Problem Int} (compressed : (compression? view).isSome)
      (severity : (Diagnostic.bufferView i problem).severity =
        if configured then .error else .warning)
      (message : (Diagnostic.bufferView i problem).message =
        s!"bufferViews[{i}]: {problem.message}") :
      Atomic configured i view r { r with problems := r.problems ++ [(i, problem)] }
  | decoded {target : Buffer} {data : Bytes} (compressed : (compression? view).isSome)
      (decoder : configured = true) (found : elementAt? r.buffers view.buffer = some target) :
      Atomic configured i view r
        { r with
          buffers := r.buffers.modify view.buffer.toNat fun b => { b with data := some data }
          decoded := r.decoded + 1 }

section
variable {σ : Type} {decoder : Option (Decoder (StateM σ))} {buffers buffers' : List Buffer}
  {s s' : σ} {t : Trial} {trials : List Trial}

theorem Tried.atomic {r : Result} (h : Tried decoder r.buffers s t s') (hr : r.fault = none)
    (hcause : t.course.cause? = none) (i : ℕ) :
    Atomic decoder.isSome i t.view r (r.after i t) := by
  obtain ⟨buffers, decoded, problems, fault⟩ := r
  obtain rfl : fault = none := hr
  cases h with
  | plain uncompressed =>
      simpa [Result.after, Trial.after, Course.succeeded, Course.problem?, Course.cause?] using
        Atomic.plain uncompressed
  | undecodable compressed unconfigured =>
      subst unconfigured
      exact .told (Option.isSome_of_eq_some compressed) rfl rfl
  | sourceless compressed configured source =>
      subst configured
      exact .told (Option.isSome_of_eq_some compressed) rfl rfl
  | targetless compressed configured source target =>
      subst configured
      exact .told (Option.isSome_of_eq_some compressed) rfl rfl
  | failed configured called =>
      subst configured
      exact .told (Option.isSome_of_eq_some called.compressed) rfl rfl
  | misfit configured called size =>
      subst configured
      exact .told (Option.isSome_of_eq_some called.compressed) rfl rfl
  | broken configured called size unfilled => cases hcause
  | @stored view c decode handed target previous content s' configured called size filled =>
      subst configured
      let data := spliceAt previous view.byteOffset content
      have hdecoded : Atomic true i view ⟨buffers, decoded, problems, none⟩
          ⟨buffers.modify view.buffer.toNat fun b => { b with data := some data }, decoded + 1,
            problems, none⟩ :=
        .decoded (Option.isSome_of_eq_some called.compressed) rfl called.target
      simpa [Result.after, Trial.after, Course.succeeded, Course.problem?, Course.cause?] using
        hdecoded

/-- A view that does not break the decoding off is decoded exactly if it is compressed and has no
problem. -/
theorem Tried.succeeded_iff (h : Tried decoder buffers s t s') (hcause : t.course.cause? = none) :
    t.course.succeeded = true ↔ (compression? t.view).isSome ∧ t.course.problem? = none := by
  cases h with
  | plain uncompressed => simp [Course.succeeded, uncompressed]
  | broken => cases hcause
  | stored configured called => simp [Course.succeeded, Course.problem?, called.compressed]
  | _ => simp [Course.succeeded, Course.problem?]

theorem Tried.elementAt?_after (h : Tried decoder buffers s t s') {k : Int}
    (hk : t.course.succeeded = true → t.view.buffer ≠ k) :
    elementAt? (t.after buffers) k = elementAt? buffers k := by
  cases h with
  | stored configured called size filled =>
      subst configured
      exact (Tried.filled (.stored rfl called size filled) rfl).others k (hk rfl).symm
  | _ => rfl

/-! ### All views -/

/-- A run leaves the buffers alone that no decoded view belongs to. -/
theorem Run.elementAt?_eq (h : Run decoder buffers s trials buffers' s') {k : Int}
    (hk : ∀ t ∈ trials, t.course.succeeded = true → t.view.buffer ≠ k) :
    elementAt? buffers' k = elementAt? buffers k := by
  induction h with
  | nil => rfl
  | cons first _ _ ih =>
      rw [List.forall_mem_cons] at hk
      rw [ih hk.2, first.elementAt?_after hk.1]
  | broken last _ => exact last.elementAt?_after (hk _ (List.mem_singleton_self _))

theorem Run.succeeded_iff (h : Run decoder buffers s trials buffers' s') :
    ∀ t ∈ trials, t.course.cause? = none →
      (t.course.succeeded = true ↔ (compression? t.view).isSome ∧ t.course.problem? = none) := by
  induction h with
  | nil => simp
  | cons first _ _ ih => exact List.forall_mem_cons.2 ⟨first.succeeded_iff, ih⟩
  | broken last _ => exact List.forall_mem_singleton.2 last.succeeded_iff

end

/-- The result when as many of the views have been tried. -/
def resultAt {σ : Type} (decoder : Option (Decoder (StateM σ))) (d : Document) (s : σ) (n : ℕ) :
    Result :=
  ((decodeViews decoder 0 { buffers := d.buffers } (d.bufferViews.take n)).run s).1

/-- A result comes about view by view. -/
structure Stepwise {σ : Type} (decoder : Option (Decoder (StateM σ))) (d : Document) (s : σ)
    (result : Result) : Prop where
  first : resultAt decoder d s 0 = { buffers := d.buffers }
  step : ∀ i view, d.bufferViews[i]? = some view →
    Atomic decoder.isSome i view (resultAt decoder d s i) (resultAt decoder d s (i + 1))
  last : resultAt decoder d s d.bufferViews.length = result

/-- The compressed views that a result has no problem of, with their indices. -/
def Result.decodedViews (r : Result) (views : List BufferView) : List (BufferView × ℕ) :=
  views.zipIdx.filter fun p => (compression? p.1).isSome && !(r.problems.map (·.1)).contains p.2

/-- What the decoding of all views leaves of a document, told by its result. -/
structure Framed (d : Document) (r : Result) : Prop where
  count : r.decoded = (r.decodedViews d.bufferViews).length
  /-- No view has two problems, and they come in the order of the views. -/
  problems : (r.problems.map (·.1)).Pairwise (· < ·)
  /-- Of each buffer all is left but the data. -/
  rest : List.Forall₂ (fun b b' => b' = { b with data := b'.data }) d.buffers r.buffers
  others : ∀ k, (∀ p ∈ r.decodedViews d.bufferViews, p.1.buffer ≠ k) →
    elementAt? r.buffers k = elementAt? d.buffers k

section
variable {σ : Type} {decoder : Option (Decoder (StateM σ))} {d : Document} {s s' : σ}
  {result : Result} {trials : List Trial}

theorem run_decodeViews_append (decoder : Option (Decoder (StateM σ))) (i : ℕ) {r : Result}
    (hr : r.fault = none) (views more : List BufferView) (s : σ) :
    (decodeViews decoder i r (views ++ more)).run s =
      if ((decodeViews decoder i r views).run s).1.fault.isSome then
        (decodeViews decoder i r views).run s
      else
        (decodeViews decoder (i + views.length) ((decodeViews decoder i r views).run s).1 more).run
          ((decodeViews decoder i r views).run s).2 := by
  induction views generalizing i r s with
  | nil =>
      simp only [decodeViews, run_pure, hr, List.nil_append, List.length_nil, Nat.add_zero]
      rfl
  | cons view views ih =>
      rw [List.cons_append, run_decodeViews_cons decoder hr, run_decodeViews_cons decoder hr view views]
      by_cases hfirst : ((decodeViews decoder i r [view]).run s).1.fault.isSome
      · simp only [if_pos hfirst]
      · simp only [if_neg hfirst]
        rw [ih (i + 1) (Option.not_isSome_iff_eq_none.1 hfirst), List.length_cons, Nat.add_assoc,
          Nat.add_comm 1]

/-- A decoding that does not break off has not broken off at any view. -/
theorem fault_resultAt (h : ((decodeAll decoder d).run s).1.fault = none) (n : ℕ) :
    (resultAt decoder d s n).fault = none := by
  have hsplit := run_decodeViews_append decoder 0 (r := { buffers := d.buffers }) rfl
    (d.bufferViews.take n) (d.bufferViews.drop n) s
  rw [List.take_append_drop] at hsplit
  by_contra hbroken
  rw [resultAt] at hbroken
  rw [decodeAll, hsplit, if_pos (Option.isSome_iff_ne_none.2 hbroken)] at h
  exact hbroken h

theorem atomic_resultAt (h : ((decodeAll decoder d).run s).1.fault = none) {i : ℕ}
    {view : BufferView} (hview : d.bufferViews[i]? = some view) :
    Atomic decoder.isSome i view (resultAt decoder d s i) (resultAt decoder d s (i + 1)) := by
  have hbefore := fault_resultAt h i
  have hunbroken := hbefore
  rw [resultAt] at hunbroken
  have hafter := fault_resultAt h (i + 1)
  have hlt : i < d.bufferViews.length := (List.getElem?_eq_some_iff.1 hview).1
  have hlength : (d.bufferViews.take i).length = i := List.length_take_of_le hlt.le
  have htake : d.bufferViews.take (i + 1) = d.bufferViews.take i ++ [view] := by
    rw [List.take_add_one, hview, Option.toList_some]
  obtain ⟨course, s', htried, hstep⟩ := exists_tried decoder i hbefore view
    ((decodeViews decoder 0 { buffers := d.buffers } (d.bufferViews.take i)).run s).2
  have hnext : resultAt decoder d s (i + 1) = (resultAt decoder d s i).after i ⟨view, course⟩ := by
    rw [resultAt, htake, run_decodeViews_append decoder 0 rfl,
      if_neg (Option.not_isSome_iff_eq_none.2 hunbroken), hlength, Nat.zero_add]
    exact congrArg Prod.fst hstep
  rw [hnext] at hafter ⊢
  exact htried.atomic hbefore hafter i

theorem stepwise (h : (decodeAll decoder d).run s = (result, s')) (hfault : result.fault = none) :
    Stepwise decoder d s result where
  first := rfl
  step i view := atomic_resultAt (by rw [h, hfault])
  last := by rw [resultAt, List.take_length, ← decodeAll, h]

namespace Decoded

variable (h : Decoded decoder d s trials result s')
include h

theorem mem_problems_iff {i : ℕ} {t : Trial} (ht : trials[i]? = some t) :
    i ∈ result.problems.map (·.1) ↔ t.course.problem?.isSome := by
  rw [h.problems]
  simp only [List.mem_map, List.mem_filterMap, Option.map_eq_some_iff]
  constructor
  · rintro ⟨_, ⟨⟨t', i'⟩, hmem, problem, hproblem, rfl⟩, rfl⟩
    rw [List.mk_mem_zipIdx_iff_getElem?, ht] at hmem
    cases hmem
    exact Option.isSome_of_eq_some hproblem
  · intro hsome
    obtain ⟨problem, hproblem⟩ := Option.isSome_iff_exists.1 hsome
    exact ⟨(i, problem), ⟨(t, i), List.mk_mem_zipIdx_iff_getElem?.2 ht, problem, hproblem, rfl⟩, rfl⟩

theorem pairwise_problems : (result.problems.map (·.1)).Pairwise (· < ·) := by
  have hindices : trials.zipIdx.Pairwise fun p q => p.2 < q.2 := by
    rw [← List.pairwise_map, List.zipIdx_map_snd]
    exact List.pairwise_lt_range'
  rw [h.problems, List.pairwise_map]
  apply hindices.filterMap
  rintro p q hpq _ hp _ hq
  obtain ⟨_, -, rfl⟩ := Option.map_eq_some_iff.1 hp
  obtain ⟨_, -, rfl⟩ := Option.map_eq_some_iff.1 hq
  exact hpq

/-- The decoded views can be told from the problems. -/
theorem succeeded_iff (hfault : result.fault = none) {i : ℕ} {t : Trial}
    (ht : trials[i]? = some t) :
    t.course.succeeded = true ↔
      ((compression? t.view).isSome && !(result.problems.map (·.1)).contains i) = true := by
  have hmem := List.mem_of_getElem? ht
  rw [h.run.succeeded_iff t hmem (h.fault.1 hfault t hmem)]
  simp [← Option.not_isSome_iff_eq_none, ← h.mem_problems_iff ht]

theorem framed (hfault : result.fault = none) : Framed d result := by
  have hviews := h.complete hfault
  refine ⟨?count, h.pairwise_problems, ?rest, fun k hk => h.run.elementAt?_eq fun t ht hdecoded => ?others⟩
  case count =>
    rw [h.decoded, Result.decodedViews, ← hviews, List.zipIdx_map, ← List.countP_eq_length_filter,
      List.countP_map]
    conv_lhs => rw [← List.zipIdx_map_fst 0 trials, List.countP_map]
    apply List.countP_congr
    rintro ⟨t, i⟩ hmem
    exact h.succeeded_iff hfault (List.mk_mem_zipIdx_iff_getElem?.1 hmem)
  case rest =>
    have hall := forall₂_decodeViews (R := fun b b' => b' = { b with data := b'.data })
      (fun _ => rfl) (fun _ _ _ _ _ => rfl) (fun a b c hab hbc => by rw [hbc, hab]) decoder 0
      { buffers := d.buffers } d.bufferViews s
    rw [← decodeAll, h.answer] at hall
    exact hall
  case others =>
    obtain ⟨i, hi⟩ := List.getElem?_of_mem ht
    apply hk (t.view, i)
    rw [Result.decodedViews, List.mem_filter, List.mk_mem_zipIdx_iff_getElem?, ← hviews,
      List.getElem?_map, hi]
    exact ⟨rfl, (h.succeeded_iff hfault hi).1 hdecoded⟩

end Decoded

end

end Meshopt

/-- What decoding the buffer views of a document does if it does not break off. Each compressed view
either gets one diagnostic, which names it, and has no other effect, or it gets none and its buffer has
other data; a view that is not compressed has no effect at all. The compressed views without a diagnostic
are counted. Of the document nothing is changed but the data of buffers that those views belong to. -/
theorem Draft.decodeViews_atomic {σ : Type} {decoder : Option (Meshopt.Decoder (StateM σ))}
    {draft draft' : Draft} {s s' : σ} (h : (draft.decodeViews decoder).run s = (.ok draft', s')) :
    ∃ result, (Meshopt.decodeAll decoder draft.document).run s = (result, s') ∧
      draft' = draft.add { draft.document with buffers := result.buffers }
        (result.problems.map fun p => .bufferView p.1 p.2) ∧
      Meshopt.Stepwise decoder draft.document s result ∧
      Meshopt.Framed draft.document result := by
  obtain ⟨trials, result, s₁, hdecoded⟩ := Meshopt.exists_decoded decoder draft.document s
  have hrun := hdecoded.answer
  rw [decodeViews, run_bind, hrun] at h
  dsimp only at h
  cases hfault : result.fault with
  | some cause =>
      rw [hfault] at h
      cases h
  | none =>
      rw [hfault] at h
      cases h
      exact ⟨result, hrun, rfl, Meshopt.stepwise hrun hfault, hdecoded.framed hfault⟩

/-- The first view is not compressed, the content of the second is too short, and that of the third is put
into the zeros of a buffer without data. -/
theorem Draft.decodeViews_atomic_misfit :
    let compressed (count : Int) : Attachments :=
      ({} : Attachments).add Schema.meshoptCompression.extensionName
        (.make Schema.meshoptCompression
          [("buffer", .ofInt 0), ("byte_length", .ofInt 1), ("byte_stride", .ofInt 2),
            ("count", .ofInt count), ("mode", .ofString "ATTRIBUTES"), ("filter", .ofString "NONE")] {})
    let draft : Draft :=
      { document :=
          { buffers := [{ byteLength := 1, data := some [7] }, { byteLength := 3 }]
            bufferViews :=
              [{ buffer := 0, byteLength := 1 },
                { buffer := 0, byteLength := 4, attachments := compressed 2 },
                { buffer := 1, byteOffset := 1, byteLength := 2, attachments := compressed 1 }] }
        diagnostics := [] }
    let decode : Meshopt.Decoder (StateM Unit) := fun _ _ _ _ _ => pure (.ok [8, 9])
    let draft' := draft.add
      { draft.document with
        buffers := [{ byteLength := 1, data := some [7] }, { byteLength := 3, data := some [0, 8, 9] }] }
      [.bufferView 1 (.wrongSize 2 4)]
    (draft.decodeViews (some decode)).run () = (.ok draft', ()) ∧
      ∃ result, (Meshopt.decodeAll (some decode) draft.document).run () = (result, ()) ∧
        draft' = draft.add { draft.document with buffers := result.buffers }
          (result.problems.map fun p => .bufferView p.1 p.2) ∧
        Meshopt.Stepwise (some decode) draft.document () result ∧
        Meshopt.Framed draft.document result := by
  intro compressed draft decode draft'
  have hrun : (draft.decodeViews (some decode)).run () = (.ok draft', ()) := rfl
  exact ⟨hrun, decodeViews_atomic hrun⟩

end Gltf
