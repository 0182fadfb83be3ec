import Gltf.Proofs.Resource.Returns
import Mathlib

/-!
What the decoding of compressed buffer views does, view by view. Each view is tried on the buffers as
the views before it have left them. It is refused before the decoder is called, or the decoder is
called and gives no content of the right size, or the content is put over the data of a buffer. The
decoding breaks off at content for a buffer that cannot be filled.
-/

namespace Gltf.Meshopt

/-! ### Trials -/

/-- What came of a view. -/
inductive Course where
  /-- It is not compressed. -/
  | plain
  /-- The decoder is not called for it. -/
  | refused (problem : Problem Int)
  /-- The decoder is called and gives no content of the right size. -/
  | failed (handed : Bytes) (problem : Problem Int)
  /-- There is content, but its buffer cannot be filled. -/
  | broken (handed : Bytes) (cause : NegativeLength)
  /-- The content is put over the data that its buffer had before. -/
  | stored (handed previous content : Bytes)

namespace Course

/-- The bytes that the decoder was called with, if it was called. -/
def handed? : Course → Option Bytes
  | plain => none
  | refused _ => none
  | failed handed _ => some handed
  | broken handed _ => some handed
  | stored handed _ _ => some handed

def problem? : Course → Option (Problem Int)
  | refused problem => some problem
  | failed _ problem => some problem
  | _ => none

def cause? : Course → Option NegativeLength
  | broken _ cause => some cause
  | _ => none

def succeeded : Course → Bool
  | stored _ _ _ => true
  | _ => false

end Course

/-- A view and what came of it. -/
structure Trial where
  view : BufferView
  course : Course

/-- The buffers after a view was tried. -/
def Trial.after (t : Trial) (buffers : List Buffer) : List Buffer :=
  match t.course with
  | .stored _ previous content =>
      buffers.modify t.view.buffer.toNat fun b =>
        { b with data := some (spliceAt previous t.view.byteOffset content) }
  | _ => buffers

/-- The data that the compressed bytes of a view lie in. -/
def sourceData? (buffers : List Buffer) (c : Compression) : Option Bytes :=
  (elementAt? buffers c.buffer).bind Buffer.data

/-- The part of data that the decoder is called with. -/
def Compression.cut (c : Compression) (data : Bytes) : Bytes :=
  Bytes.slice data c.byteOffset (c.byteOffset + c.byteLength)

theorem source?_eq (buffers : List Buffer) (c : Compression) :
    source? buffers c = (sourceData? buffers c).map c.cut := by
  rw [source?, sourceData?]
  cases elementAt? buffers c.buffer with
  | none => rfl
  | some b => cases hdata : b.data <;> simp [hdata, Compression.cut]

variable {σ : Type}

/-- The decoder is called for a view, whose buffer there is, and answers. -/
structure Called (decode : Decoder (StateM σ)) (buffers : List Buffer) (s : σ) (view : BufferView)
    (c : Compression) (handed : Bytes) (target : Buffer) (answer : Except String Bytes) (s' : σ) :
    Prop where
  compressed : compression? view = some c
  source : source? buffers c = some handed
  target : elementAt? buffers view.buffer = some target
  answer : (decode handed c.count c.byteStride c.mode c.filter).run s = (answer, s')

/-- One view is tried on buffers. -/
inductive Tried (decoder : Option (Decoder (StateM σ))) (buffers : List Buffer) (s : σ) :
    Trial → σ → Prop
  | plain {view : BufferView} (uncompressed : compression? view = none) :
      Tried decoder buffers s ⟨view, .plain⟩ s
  | undecodable {view : BufferView} {c : Compression} (compressed : compression? view = some c)
      (unconfigured : decoder = none) :
      Tried decoder buffers s ⟨view, .refused .noDecoder⟩ s
  | sourceless {view : BufferView} {c : Compression} {decode : Decoder (StateM σ)}
      (compressed : compression? view = some c) (configured : decoder = some decode)
      (source : source? buffers c = none) :
      Tried decoder buffers s ⟨view, .refused (.noSource c.buffer)⟩ s
  | targetless {view : BufferView} {c : Compression} {decode : Decoder (StateM σ)} {handed : Bytes}
      (compressed : compression? view = some c) (configured : decoder = some decode)
      (source : source? buffers c = some handed) (target : elementAt? buffers view.buffer = none) :
      Tried decoder buffers s ⟨view, .refused (.noTarget view.buffer)⟩ s
  | failed {view : BufferView} {c : Compression} {decode : Decoder (StateM σ)} {handed : Bytes}
      {target : Buffer} {text : String} {s' : σ} (configured : decoder = some decode)
      (called : Called decode buffers s view c handed target (.error text) s') :
      Tried decoder buffers s ⟨view, .failed handed (.failed text)⟩ s'
  | misfit {view : BufferView} {c : Compression} {decode : Decoder (StateM σ)} {handed : Bytes}
      {target : Buffer} {content : Bytes} {s' : σ} (configured : decoder = some decode)
      (called : Called decode buffers s view c handed target (.ok content) s')
      (size : (content.length : Int) ≠ c.count * c.byteStride) :
      Tried decoder buffers s
        ⟨view, .failed handed (.wrongSize content.length (c.count * c.byteStride))⟩ s'
  | broken {view : BufferView} {c : Compression} {decode : Decoder (StateM σ)} {handed : Bytes}
      {target : Buffer} {content : Bytes} {cause : NegativeLength} {s' : σ}
      (configured : decoder = some decode)
      (called : Called decode buffers s view c handed target (.ok content) s')
      (size : (content.length : Int) = c.count * c.byteStride)
      (unfilled : dataOrZeros target = .error cause) :
      Tried decoder buffers s ⟨view, .broken handed cause⟩ s'
  | stored {view : BufferView} {c : Compression} {decode : Decoder (StateM σ)} {handed : Bytes}
      {target : Buffer} {previous content : Bytes} {s' : σ} (configured : decoder = some decode)
      (called : Called decode buffers s view c handed target (.ok content) s')
      (size : (content.length : Int) = c.count * c.byteStride)
      (filled : dataOrZeros target = .ok previous) :
      Tried decoder buffers s ⟨view, .stored handed previous content⟩ s'

/-- Views are tried in turn, each on the buffers as the ones before have left them, up to the first
that breaks off. -/
inductive Run (decoder : Option (Decoder (StateM σ))) :
    List Buffer → σ → List Trial → List Buffer → σ → Prop
  | nil (buffers : List Buffer) (s : σ) : Run decoder buffers s [] buffers s
  | cons {buffers buffers' : List Buffer} {s s₁ s' : σ} {t : Trial} {trials : List Trial}
      (first : Tried decoder buffers s t s₁) (unbroken : t.course.cause? = none)
      (rest : Run decoder (t.after buffers) s₁ trials buffers' s') :
      Run decoder buffers s (t :: trials) buffers' s'
  | broken {buffers : List Buffer} {s s' : σ} {t : Trial} (last : Tried decoder buffers s t s')
      (cause : t.course.cause?.isSome) : Run decoder buffers s [t] (t.after buffers) s'

/-! ### The decoding as a run -/

/-- The result with a trial more. -/
def Result.after (r : Result) (i : ℕ) (t : Trial) : Result where
  buffers := t.after r.buffers
  decoded := r.decoded + if t.course.succeeded then 1 else 0
  problems := r.problems ++ (t.course.problem?.map (i, ·)).toList
  fault := t.course.cause?

/-- The result with trials more, which start at an index. -/
def Result.afterAll (r : Result) (i : ℕ) : List Trial → Result
  | [] => r
  | t :: trials => (r.after i t).afterAll (i + 1) trials

theorem modify_eq_set {α : Type} {l : List α} {i : ℕ} {a : α} (h : l[i]? = some a) (f : α → α) :
    l.modify i f = l.set i (f a) := by
  rw [List.modify_eq_set_getElem?, h]
  rfl

/-- What is told of a compressed view that was tried on buffers. -/
def Trial.answer (t : Trial) (buffers : List Buffer) : Except NegativeLength Outcome :=
  match t.course.cause?, t.course.problem? with
  | some cause, _ => .error cause
  | none, some problem => .ok (.problem problem)
  | none, none => .ok (.decoded (t.after buffers))

section
variable {decode : Decoder (StateM σ)} {buffers : List Buffer} {view : BufferView} {c : Compression}
  {s s' : σ} {handed : Bytes} {target : Buffer}

theorem Called.run_decodeView_error {text : String}
    (h : Called decode buffers s view c handed target (.error text) s') :
    (decodeView (some decode) buffers view c).run s = (.ok (.problem (.failed text)), s') := by
  simp only [decodeView, h.source, h.target, run_bind, h.answer]
  rfl

theorem Called.run_decodeView_ok {content : Bytes}
    (h : Called decode buffers s view c handed target (.ok content) s') :
    (decodeView (some decode) buffers view c).run s = (store buffers view target c content, s') := by
  simp only [decodeView, h.source, h.target, run_bind, h.answer]
  rfl

/-- Content is stored, or it does not fit, or it cannot be stored. -/
theorem Called.exists_tried {content : Bytes}
    (h : Called decode buffers s view c handed target (.ok content) s') :
    ∃ course, Tried (some decode) buffers s ⟨view, course⟩ s' ∧
      store buffers view target c content = Trial.answer ⟨view, course⟩ buffers := by
  by_cases hsize : (content.length : Int) = c.count * c.byteStride
  · cases hdata : dataOrZeros target with
    | error cause =>
        refine ⟨_, .broken rfl h hsize hdata, ?_⟩
        rw [store, if_neg (not_not.2 hsize), hdata]
        rfl
    | ok previous =>
        refine ⟨_, .stored rfl h hsize hdata, ?_⟩
        obtain ⟨n, hn, htarget⟩ := elementAt?_eq_some h.target
        rw [store, if_neg (not_not.2 hsize), hdata]
        simp only [Trial.answer, Course.cause?, Course.problem?, Trial.after]
        rw [hn, Int.toNat_natCast, modify_eq_set htarget]
  · refine ⟨_, .misfit rfl h hsize, ?_⟩
    rw [store, if_pos hsize]
    rfl

end

theorem exists_tried_decodeView (decoder : Option (Decoder (StateM σ))) (buffers : List Buffer)
    {view : BufferView} {c : Compression} (hc : compression? view = some c) (s : σ) :
    ∃ course s', Tried decoder buffers s ⟨view, course⟩ s' ∧
      (decodeView decoder buffers view c).run s = (Trial.answer ⟨view, course⟩ buffers, s') := by
  cases decoder with
  | none => exact ⟨_, s, .undecodable hc rfl, rfl⟩
  | some decode =>
      cases hsource : source? buffers c with
      | none =>
          refine ⟨_, s, .sourceless hc rfl hsource, ?_⟩
          rw [decodeView, hsource]
          rfl
      | some handed =>
          cases htarget : elementAt? buffers view.buffer with
          | none =>
              refine ⟨_, s, .targetless hc rfl hsource htarget, ?_⟩
              simp only [decodeView, hsource, htarget]
              rfl
          | some target =>
              rcases hanswer : (decode handed c.count c.byteStride c.mode c.filter).run s with
                ⟨text | content, s'⟩
              · have hcalled : Called decode buffers s view c handed target (.error text) s' :=
                  ⟨hc, hsource, htarget, hanswer⟩
                exact ⟨_, s', .failed rfl hcalled, hcalled.run_decodeView_error⟩
              · have hcalled : Called decode buffers s view c handed target (.ok content) s' :=
                  ⟨hc, hsource, htarget, hanswer⟩
                obtain ⟨course, htried, hstore⟩ := hcalled.exists_tried
                refine ⟨course, s', htried, ?_⟩
                rw [hcalled.run_decodeView_ok, hstore]

theorem exists_tried (decoder : Option (Decoder (StateM σ))) (i : ℕ) {r : Result}
    (hr : r.fault = none) (view : BufferView) (s : σ) :
    ∃ course s', Tried decoder r.buffers s ⟨view, course⟩ s' ∧
      (decodeViews decoder i r [view]).run s = (r.after i ⟨view, course⟩, s') := by
  obtain ⟨buffers, decoded, problems, fault⟩ := r
  obtain rfl : fault = none := hr
  cases hc : compression? view with
  | none =>
      refine ⟨.plain, s, .plain hc, ?_⟩
      simp only [decodeViews, hc, run_pure, Result.after, Trial.after, Course.problem?,
        Course.succeeded, Course.cause?]
      simp
  | some c =>
      obtain ⟨course, s', htried, hanswer⟩ := exists_tried_decodeView decoder buffers hc s
      refine ⟨course, s', htried, ?_⟩
      rw [decodeViews, hc]
      dsimp only
      rw [run_bind, hanswer]
      -- A compressed view that has no problem and is not broken off is one that is stored.
      cases htried with
      | plain uncompressed => cases uncompressed.symm.trans hc
      | _ =>
          simp only [Trial.answer, Course.cause?, Course.problem?, decodeViews, run_pure,
            Result.after, Trial.after, Course.succeeded]
          simp

theorem decoded_afterAll (r : Result) (i : ℕ) (trials : List Trial) :
    (r.afterAll i trials).decoded = r.decoded + trials.countP (·.course.succeeded) := by
  induction trials generalizing r i with
  | nil => rfl
  | cons t trials ih =>
      rw [Result.afterAll, ih, List.countP_cons, Result.after, Nat.add_assoc, Nat.add_comm (ite ..)]

theorem problems_afterAll (r : Result) (i : ℕ) (trials : List Trial) :
    (r.afterAll i trials).problems = r.problems ++ (trials.zipIdx i).filterMap fun p =>
      p.1.course.problem?.map (p.2, ·) := by
  induction trials generalizing r i with
  | nil => simp [Result.afterAll]
  | cons t trials ih =>
      rw [Result.afterAll, ih, Result.after, List.zipIdx_cons, List.append_assoc]
      cases h : t.course.problem? <;> simp [h]

/-- The views are tried in their order. Those behind one that breaks off are not tried. -/
theorem exists_run (decoder : Option (Decoder (StateM σ))) (i : ℕ) {r : Result}
    (hr : r.fault = none) (views : List BufferView) (s : σ) :
    ∃ trials s', Run decoder r.buffers s trials (r.afterAll i trials).buffers s' ∧
      (decodeViews decoder i r views).run s = (r.afterAll i trials, s') ∧
      trials.map Trial.view <+: views ∧
      ((r.afterAll i trials).fault = none ↔ ∀ t ∈ trials, t.course.cause? = none) ∧
      ((r.afterAll i trials).fault = none → trials.map Trial.view = views) := by
  -- The views behind the first are tried on the buffers and in the state that it leaves.
  induction views generalizing i r s with
  | nil =>
      exact ⟨[], s, .nil _ _, rfl, List.prefix_rfl, by simpa [Result.afterAll] using hr,
        fun _ => rfl⟩
  | cons view views ih =>
      obtain ⟨course, s₁, hfirst, hstep⟩ := exists_tried decoder i hr view s
      have hfault : (r.after i ⟨view, course⟩).fault = course.cause? := rfl
      cases hcause : course.cause? with
      | some cause =>
          refine ⟨[⟨view, course⟩], s₁, .broken hfirst (by simp [hcause]), ?_, ?_, ?_, ?_⟩
          · rw [run_decodeViews_cons decoder hr, hstep, hfault, hcause, Option.isSome_some, if_pos rfl]
            rfl
          · exact List.prefix_append [view] views
          · simp [Result.afterAll, hfault, hcause]
          · intro hnone
            rw [Result.afterAll, Result.afterAll, hfault, hcause] at hnone
            cases hnone
      | none =>
          obtain ⟨trials, s', hrest, hrun, hprefix, hbroken, hall⟩ := ih (i + 1) (hfault.trans hcause) s₁
          refine ⟨⟨view, course⟩ :: trials, s', .cons hfirst hcause hrest, ?_, ?_, ?_, ?_⟩
          · rw [run_decodeViews_cons decoder hr, hstep, hfault, hcause]
            exact hrun
          · exact (List.prefix_cons_inj view).2 hprefix
          · rw [List.forall_mem_cons]
            exact hbroken.trans (by simp [hcause])
          · intro hnone
            exact congrArg (view :: ·) (hall hnone)

/-- All that comes of decoding the views of a document. -/
structure Decoded (decoder : Option (Decoder (StateM σ))) (d : Document) (s : σ)
    (trials : List Trial) (result : Result) (s' : σ) : Prop where
  answer : (decodeAll decoder d).run s = (result, s')
  run : Run decoder d.buffers s trials result.buffers s'
  views : trials.map Trial.view <+: d.bufferViews
  fault : result.fault = none ↔ ∀ t ∈ trials, t.course.cause? = none
  complete : result.fault = none → trials.map Trial.view = d.bufferViews
  decoded : result.decoded = trials.countP (·.course.succeeded)
  /-- Each problem comes with the index of its view. -/
  problems : result.problems =
    trials.zipIdx.filterMap fun p => p.1.course.problem?.map (p.2, ·)

theorem exists_decoded (decoder : Option (Decoder (StateM σ))) (d : Document) (s : σ) :
    ∃ trials result s', Decoded decoder d s trials result s' := by
  obtain ⟨trials, s', hrun, hanswer, hviews, hfault, hcomplete⟩ :=
    exists_run decoder 0 (r := { buffers := d.buffers }) rfl d.bufferViews s
  have hdecoded := decoded_afterAll { buffers := d.buffers } 0 trials
  have hproblems := problems_afterAll { buffers := d.buffers } 0 trials
  rw [Nat.zero_add] at hdecoded
  rw [List.nil_append] at hproblems
  exact ⟨trials, _, s', hanswer, hrun, hviews, hfault, hcomplete, hdecoded, hproblems⟩

/-- The buffers that a view is tried on, and what is done with those that it leaves. -/
theorem Run.at {decoder : Option (Decoder (StateM σ))} {buffers buffers' : List Buffer} {s s' : σ}
    {before after : List Trial} {t : Trial}
    (h : Run decoder buffers s (before ++ t :: after) buffers' s') :
    ∃ buffers₁ s₁ s₂, Run decoder buffers s before buffers₁ s₁ ∧ Tried decoder buffers₁ s₁ t s₂ ∧
      (t.course.cause? = none → Run decoder (t.after buffers₁) s₂ after buffers' s') := by
  induction before generalizing buffers s with
  | nil =>
      cases h with
      | cons first _ rest => exact ⟨buffers, s, _, .nil _ _, first, fun _ => rest⟩
      | broken last _ => exact ⟨buffers, s, _, .nil _ _, last, fun _ => .nil _ _⟩
  | cons b before ih =>
      generalize hall : before ++ t :: after = trials at ih
      rw [List.cons_append, hall] at h
      cases h with
      | cons first unbroken rest =>
          subst hall
          obtain ⟨buffers₁, s₁, s₂, hrun, htried, hafter⟩ := ih rest
          exact ⟨buffers₁, s₁, s₂, .cons first unbroken hrun, htried, hafter⟩
      -- A view that breaks off is the last, but this one comes behind it.
      | broken last cause => exact absurd hall (by simp)

end Gltf.Meshopt
