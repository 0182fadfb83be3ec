import Gltf.Proofs.Resource.Attached
import Mathlib

/-!
The stages that bring in what a document refers to, each as a function of the document alone. A read
passes through them in order: each gets the document as the one before has left it, and what they
find is put together in the same order, behind the findings of the root object.
-/

namespace Gltf

namespace Draft

/-- A document in which nothing has been found. -/
def fresh (document : Document) : Draft := ⟨document, []⟩

/-- A draft with findings before its own. -/
def after (before : List Diagnostic) (d : Draft) : Draft := ⟨d.document, before ++ d.diagnostics⟩

theorem add_eq_after (d : Draft) (document : Document) (found : List Diagnostic) :
    d.add document found = ((fresh d.document).add document found).after d.diagnostics := rfl

theorem bind_eq_after (chunk : Option Bytes) (d : Draft) :
    d.bind chunk = ((fresh d.document).bind chunk).after d.diagnostics := by
  cases chunk with
  | none => simp [bind, fresh, after]
  | some chunk => rfl

variable {m : Type → Type} [Monad m] [LawfulMonad m]

theorem resolve_eq_after (loader : Option (Loader m)) (ro : ReadOptions) (d : Draft) :
    d.resolve loader ro = after d.diagnostics <$> (fresh d.document).resolve loader ro := by
  simp [resolve, add_eq_after d, fresh]

theorem decodeViews_eq_after (decoder : Option (Meshopt.Decoder m)) (d : Draft) :
    d.decodeViews decoder =
      Except.map (after d.diagnostics) <$> (fresh d.document).decodeViews decoder := by
  simp only [decodeViews, map_bind, fresh]
  congr 1
  funext r
  cases r.fault <;> simp [Except.map, add_eq_after d, fresh]

theorem decodePrimitives_eq_after (decoder : Option (Draco.Decoder m)) (d : Draft) :
    d.decodePrimitives decoder =
      after d.diagnostics <$> (fresh d.document).decodePrimitives decoder := by
  simp [decodePrimitives, add_eq_after d, fresh]

theorem decodeImages_eq_after (loader : Option (Loader m))
    (transcoder : Option (Image.Transcoder m)) (ro : ReadOptions) (d : Draft) :
    d.decodeImages loader transcoder ro =
      after d.diagnostics <$> (fresh d.document).decodeImages loader transcoder ro := by
  simp [decodeImages, add_eq_after d, fresh]

end Draft

/-! ### Stages -/

/-- What a stage makes of a document: the document as it leaves it with what it finds there. It may
break off. -/
abbrev Stage (σ : Type) := Document → StateM σ (Except Meshopt.NegativeLength Draft)

section
variable {σ : Type}

namespace Stage

/-- A stage that is not asked for. -/
def idle : Stage σ := fun d => pure (.ok (.fresh d))

def binding (chunk : Option Bytes) : Stage σ := fun d => pure (.ok ((Draft.fresh d).bind chunk))

def resolving (loader : Option (Loader (StateM σ))) (ro : ReadOptions) : Stage σ := fun d =>
  .ok <$> (Draft.fresh d).resolve loader ro

def decodingViews (decoder : Option (Meshopt.Decoder (StateM σ))) : Stage σ := fun d =>
  (Draft.fresh d).decodeViews decoder

def decodingPrimitives (decoder : Option (Draco.Decoder (StateM σ))) : Stage σ := fun d =>
  .ok <$> (Draft.fresh d).decodePrimitives decoder

def decodingImages (loader : Option (Loader (StateM σ)))
    (transcoder : Option (Image.Transcoder (StateM σ))) (ro : ReadOptions) : Stage σ := fun d =>
  .ok <$> (Draft.fresh d).decodeImages loader transcoder ro

end Stage

/-- The stages behind the reading of the root object, in their order. -/
def stages (c : Collaborators (StateM σ)) (ro : ReadOptions) (chunk : Option Bytes) :
    List (Stage σ) :=
  [.binding chunk, .resolving c.loader ro,
    if ro.decodeMeshopt then .decodingViews c.meshopt else .idle,
    if ro.decodeDraco then .decodingPrimitives c.draco else .idle,
    if ro.decodeImages then .decodingImages c.loader c.transcoder ro else .idle]

/-- Stages pass one after the other, each on the document that the one before has left. The findings
are listed stage by stage. -/
inductive Passes : List (Stage σ) → Document → σ → List (List Diagnostic) → Document → σ → Prop
  | nil (d : Document) (s : σ) : Passes [] d s [] d s
  | cons {stage : Stage σ} {stages : List (Stage σ)} {d d' : Document} {s s₁ s' : σ} {r : Draft}
      {found : List (List Diagnostic)} (first : (stage d).run s = (.ok r, s₁))
      (rest : Passes stages r.document s₁ found d' s') :
      Passes (stage :: stages) d s (r.diagnostics :: found) d' s'

/-- Takes a draft through stages. -/
def Draft.through : List (Stage σ) → Draft → StateM σ (Except Meshopt.NegativeLength Draft)
  | [], d => pure (.ok d)
  | stage :: stages, d => do
      match ← stage d.document with
      | .error cause => pure (.error cause)
      | .ok r => through stages (r.after d.diagnostics)

namespace Draft

variable (ss : List (Stage σ)) (d : Draft)

theorem through_nil : d.through ([] : List (Stage σ)) = pure (.ok d) := rfl

theorem through_idle : d.through (.idle :: ss) = d.through ss := by
  simp [through, Stage.idle, after, fresh]

theorem through_binding (chunk : Option Bytes) :
    d.through (.binding chunk :: ss) = (d.bind chunk).through ss := by
  simp [through, Stage.binding, bind_eq_after chunk d]

theorem through_resolving (loader : Option (Loader (StateM σ))) (ro : ReadOptions) :
    d.through (.resolving loader ro :: ss) = d.resolve loader ro >>= fun d => d.through ss := by
  simp [through, Stage.resolving, resolve_eq_after loader ro d]

theorem through_decodingViews (decoder : Option (Meshopt.Decoder (StateM σ))) :
    d.through (.decodingViews decoder :: ss) =
      d.decodeViews decoder >>= fun answer =>
        match answer with
        | .error cause => pure (.error cause)
        | .ok d => d.through ss := by
  simp only [through, Stage.decodingViews, decodeViews_eq_after decoder d, bind_map_left]
  congr 1
  funext answer
  cases answer <;> rfl

theorem through_decodingPrimitives (decoder : Option (Draco.Decoder (StateM σ))) :
    d.through (.decodingPrimitives decoder :: ss) =
      d.decodePrimitives decoder >>= fun d => d.through ss := by
  simp [through, Stage.decodingPrimitives, decodePrimitives_eq_after decoder d]

theorem through_decodingImages (loader : Option (Loader (StateM σ)))
    (transcoder : Option (Image.Transcoder (StateM σ))) (ro : ReadOptions) :
    d.through (.decodingImages loader transcoder ro :: ss) =
      d.decodeImages loader transcoder ro >>= fun d => d.through ss := by
  simp [through, Stage.decodingImages, decodeImages_eq_after loader transcoder ro d]

theorem attach_eq_through (c : Collaborators (StateM σ)) (ro : ReadOptions)
    (chunk : Option Bytes) : d.attach c ro chunk = d.through (stages c ro chunk) := by
  rw [stages, through_binding, through_resolving, attach]
  congr 1
  funext d
  cases ro.decodeMeshopt with
  | false =>
      cases ro.decodeDraco <;> cases ro.decodeImages <;>
        simp [through_idle, through_decodingPrimitives, through_decodingImages, through_nil]
  | true =>
      simp only [if_true, through_decodingViews]
      congr 1
      funext answer
      cases answer with
      | error cause => rfl
      | ok d =>
          cases ro.decodeDraco <;> cases ro.decodeImages <;>
            simp [through_idle, through_decodingPrimitives, through_decodingImages, through_nil]

end Draft

/-- The findings of the stages come behind those before them, and one behind the other. -/
theorem Passes.of_through {ss : List (Stage σ)} {d d' : Draft} {s s' : σ}
    (h : (d.through ss).run s = (.ok d', s')) :
    ∃ found, Passes ss d.document s found d'.document s' ∧
      d'.diagnostics = d.diagnostics ++ found.flatten := by
  induction ss generalizing d s with
  | nil =>
      cases h
      exact ⟨[], .nil _ _, by simp⟩
  | cons stage stages ih =>
      rw [Draft.through, run_bind] at h
      cases hfirst : (stage d.document).run s with
      | mk answer s₁ =>
          rw [hfirst] at h
          cases answer with
          | error cause => cases h
          | ok r =>
              obtain ⟨found, hrest, hfound⟩ := ih h
              refine ⟨r.diagnostics :: found, .cons hfirst hrest, ?_⟩
              rw [hfound, Draft.after, List.flatten_cons, List.append_assoc]

theorem Passes.through {ss : List (Stage σ)} {d d' : Document} {s s' : σ}
    {found : List (List Diagnostic)} (h : Passes ss d s found d' s') (before : List Diagnostic) :
    ((Draft.mk d before).through ss).run s = (.ok ⟨d', before ++ found.flatten⟩, s') := by
  induction h generalizing before with
  | nil d s =>
      rw [List.flatten_nil, List.append_nil]
      rfl
  | cons first rest ih =>
      rw [Draft.through, run_bind, first, List.flatten_cons, ← List.append_assoc]
      exact ih _

/-! ### What the stages leave -/

/-- A document whose buffers have gained content. -/
structure Document.Refilled (d d' : Document) : Prop where
  rest : d' = { d with buffers := d'.buffers }
  buffers : AllGain d.buffers d'.buffers

/-- A document whose images have gained pixels. -/
structure Document.Pictured (d d' : Document) : Prop where
  rest : d' = { d with images := d'.images }
  images : List.Forall₂ ImageSource.Gains d.images d'.images

theorem Document.Refilled.refl (d : Document) : d.Refilled d := ⟨rfl, .refl d.buffers⟩

theorem Document.Pictured.refl (d : Document) : d.Pictured d :=
  ⟨rfl, List.forall₂_same.2 fun _ _ => rfl⟩

theorem Document.Refilled.trans {d d' d'' : Document} (h : d.Refilled d')
    (h' : d'.Refilled d'') : d.Refilled d'' := by
  refine ⟨?_, h.buffers.trans h'.buffers⟩
  rw [h'.rest, h.rest]

/-- Buffers gain content, then decoded content is appended, and images come last. -/
theorem Document.Attached.of_stages {d d₁ d₂ d₃ : Document} (hrefilled : d.Refilled d₁)
    (happends : Draco.Appends d₁ d₂) (hpictured : d₂.Pictured d₃) : d.Attached d₃ := by
  obtain ⟨more, hmore, hfilled⟩ := happends.buffers
  have h₁ := hrefilled.rest
  have h₂ := happends.rest
  have h₃ := hpictured.rest
  have haccessors : d₃.accessors = d₂.accessors ∧ d₁.accessors = d.accessors := by
    rw [h₃, h₁]
    exact ⟨rfl, rfl⟩
  have hbuffers : d₃.buffers = d₂.buffers := by rw [h₃]
  have hviews : d₃.bufferViews = d₂.bufferViews ∧ d₁.bufferViews = d.bufferViews := by
    rw [h₃, h₁]
    exact ⟨rfl, rfl⟩
  have himages : d₂.images = d.images := by rw [h₂, h₁]
  refine ⟨by rw [h₃, h₂, h₁], ?_, ⟨d₁.buffers, more, ?_, hrefilled.buffers, hfilled⟩, ?_, ?_⟩
  · rw [haccessors.1, ← haccessors.2]
    exact happends.accessors
  · rw [hbuffers, hmore]
  · rw [hviews.1, ← hviews.2]
    exact happends.bufferViews
  · rw [← himages]
    exact hpictured.images

namespace Stage

variable {d : Document} {s s' : σ} {r : Draft}

theorem refilled_binding {chunk : Option Bytes} (h : (binding chunk d).run s = (.ok r, s')) :
    d.Refilled r.document := by
  cases h
  cases chunk with
  | none => exact .refl d
  | some chunk => exact ⟨rfl, gains_bindBinary chunk d.buffers⟩

theorem refilled_resolving {loader : Option (Loader (StateM σ))} {ro : ReadOptions}
    (h : (resolving loader ro d).run s = (.ok r, s')) : d.Refilled r.document := by
  cases h
  exact ⟨rfl, gains_resolveBuffers loader ro 0 d.buffers s⟩

/-- A stage that is not asked for finds nothing, and leaves the document as it is. -/
theorem run_or_idle {stage : Stage σ} {asked : Bool}
    (h : ((if asked then stage else idle) d).run s = (.ok r, s')) :
    (stage d).run s = (.ok r, s') ∨ r = .fresh d := by
  cases asked with
  | false =>
      cases h
      exact .inr rfl
  | true => exact .inl h

theorem eq_of_decodingViews {decoder : Option (Meshopt.Decoder (StateM σ))}
    (h : (decodingViews decoder d).run s = (.ok r, s')) :
    r = (Draft.fresh d).add { d with buffers := ((Meshopt.decodeAll decoder d).run s).1.buffers }
      (((Meshopt.decodeAll decoder d).run s).1.problems.map fun (i, p) => .bufferView i p) := by
  rw [decodingViews, Draft.decodeViews, run_bind] at h
  split at h
  · cases h
  · cases h
    rfl

theorem refilled_decodingViews {decoder : Option (Meshopt.Decoder (StateM σ))} {asked : Bool}
    (h : ((if asked then decodingViews decoder else idle) d).run s = (.ok r, s')) :
    d.Refilled r.document := by
  rcases run_or_idle h with h | rfl
  · rw [eq_of_decodingViews h]
    exact ⟨rfl, Meshopt.gains_decodeViews decoder 0 { buffers := d.buffers } d.bufferViews s⟩
  · exact .refl d

theorem appends_decodingPrimitives {decoder : Option (Draco.Decoder (StateM σ))} {asked : Bool}
    (h : ((if asked then decodingPrimitives decoder else idle) d).run s = (.ok r, s')) :
    Draco.Appends d r.document := by
  rcases run_or_idle h with h | rfl
  · cases h
    exact Draco.appends_decodePrimitives decoder ⟨d, 0, []⟩ (Draco.located d.meshes) s
  · exact .refl d

theorem pictured_decodingImages {loader : Option (Loader (StateM σ))}
    {transcoder : Option (Image.Transcoder (StateM σ))} {ro : ReadOptions} {asked : Bool}
    (h : ((if asked then decodingImages loader transcoder ro else idle) d).run s = (.ok r, s')) :
    d.Pictured r.document := by
  rcases run_or_idle h with h | rfl
  · cases h
    exact ⟨rfl, gains_decodeImages loader transcoder ro d 0 d.images s⟩
  · exact .refl d

end Stage

theorem Passes.attached {c : Collaborators (StateM σ)} {ro : ReadOptions} {chunk : Option Bytes}
    {d d' : Document} {s s' : σ} {found : List (List Diagnostic)}
    (h : Passes (stages c ro chunk) d s found d' s') : d.Attached d' := by
  obtain _ | ⟨hbinding, _ | ⟨hresolving, _ | ⟨hviews, _ | ⟨hprimitives, _ | ⟨himages, ⟨⟩⟩⟩⟩⟩⟩ := h
  have hresolved := (Stage.refilled_binding hbinding).trans (Stage.refilled_resolving hresolving)
  exact .of_stages (hresolved.trans (Stage.refilled_decodingViews hviews))
    (Stage.appends_decodingPrimitives hprimitives) (Stage.pictured_decodingImages himages)

end

end Gltf
