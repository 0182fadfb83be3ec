import Gltf.Proofs.Resource.Splicing
import Mathlib

/-!
References to buffer views that a document does not have. The views of decoded content are appended
to the same list, so such a reference comes to name decoded content once enough of it has been
appended, and is found to be dangling only before that.
-/

namespace Gltf

theorem Bytes.slice_all (bs : Bytes) : Bytes.slice bs 0 bs.length = bs := by
  have h := Bytes.slice_eq_take_drop (Nat.zero_le _) (le_refl bs.length)
  simpa using h

theorem elementAt?_append_length {α : Type} (l l' : List α) (k : ℕ) :
    elementAt? (l ++ l') (l.length + k : Nat) = l'[k]? := by
  rw [elementAt?_natCast, List.getElem?_append_right (Nat.le_add_right _ _), Nat.add_sub_cancel_left]

/-- Whether an index is that of a buffer view of a document. -/
def Document.OwnsView (d : Document) (index : Int) : Prop :=
  0 ≤ index ∧ index < d.bufferViews.length

namespace Draco

/-- A document on its own buffers and those of supplied content, with its own views only. -/
def backed (d : Document) (supplies : List Supply) : Document :=
  { d with buffers := d.buffers ++ supplies.map Supply.buffer }

/-- The supplied content that an index names which is that of no view of the document. -/
def stray? (d : Document) (supplies : List Supply) (index : Int) : Option Bytes :=
  (elementAt? supplies (index - d.bufferViews.length)).map Supply.content

namespace Spliced

variable {d d' : Document} {supplies : List Supply} {index : Int}

/-- The views of a document stay in their places. -/
theorem viewBytes_of_owns (h : Spliced d d' supplies) (hindex : d.OwnsView index) :
    d'.viewBytes index = (backed d supplies).viewBytes index := by
  obtain ⟨i, rfl⟩ := Int.eq_ofNat_of_zero_le hindex.1
  have hi : i < d.bufferViews.length := by simpa using hindex.2
  have hview : elementAt? d'.bufferViews (i : Int) = elementAt? (backed d supplies).bufferViews i := by
    rw [elementAt?_natCast, elementAt?_natCast, h.bufferViews, List.getElem?_append_left hi]
    rfl
  rw [Document.viewBytes, Document.viewBytes, hview, h.buffers]
  rfl

/-- Behind them are those of the content that was supplied, and no others. -/
theorem viewBytes_of_not_owns (h : Spliced d d' supplies) (hindex : ¬d.OwnsView index) :
    d'.viewBytes index =
      match stray? d supplies index with
      | none => .error (.noView index)
      | some content => .ok content := by
  rw [stray?]
  cases hs : elementAt? supplies (index - d.bufferViews.length) with
  | none =>
      have hnone : elementAt? d'.bufferViews index = none := by
        rw [elementAt?_eq_none_iff] at hs ⊢
        rw [Document.OwnsView] at hindex
        rw [h.length_bufferViews]
        omega
      rw [Document.viewBytes, hnone]
      rfl
  | some s =>
      -- The view and its buffer stand in the same place behind those of the document.
      obtain ⟨k, hk, hsk⟩ := elementAt?_eq_some hs
      obtain rfl : index = (d.bufferViews.length + k : Nat) := by omega
      have hview : elementAt? d'.bufferViews (d.bufferViews.length + k : Nat) =
          some (s.view (d.buffers.length + k)) := by
        rw [h.bufferViews, elementAt?_append_length, List.getElem?_mapIdx, hsk]
        rfl
      have hbuffer : elementAt? d'.buffers (d.buffers.length + k : Nat) = some s.buffer := by
        rw [h.buffers, elementAt?_append_length, List.getElem?_map, hsk]
        rfl
      have hslice := Bytes.slice_all s.content
      simp only [Document.viewBytes, hview, Supply.view, hbuffer, Supply.buffer, Int.zero_add,
        lt_irrefl, if_false, hslice, Option.map_some]

end Spliced

theorem stray?_eq_none_iff {d : Document} {supplies : List Supply} {index : Int}
    (hindex : ¬d.OwnsView index) :
    stray? d supplies index = none ↔
      index < 0 ∨ (d.bufferViews.length + supplies.length : Nat) ≤ index := by
  rw [Document.OwnsView] at hindex
  rw [stray?, Option.map_eq_none_iff, elementAt?_eq_none_iff]
  omega

/-! ### Primitives -/

section
variable {σ : Type} {decode : Decoder (StateM σ)} {d d' : Document} {s s' : σ}

/-- The document that a primitive is tried on, and what was supplied to it before. -/
theorem Run.at {before after : List Attempt} {a : Attempt}
    (h : Run decode d s (before ++ a :: after) d' s') :
    ∃ d₁ s₁ s₂, Spliced d d₁ (before.flatMap (Attempt.supplies d.accessors.length)) ∧
      Attempted decode d₁ s₁ a s₂ := by
  induction before generalizing d s with
  | nil =>
      cases h with
      | cons first rest => exact ⟨d, s, _, .refl d, first⟩
  | cons b before ih =>
      cases h with
      | cons first rest =>
          obtain ⟨d₁, s₁, s₂, hspliced, hattempted⟩ := ih rest
          have hfirst := spliced_fillAll d b.targets
          rw [hfirst.count] at hspliced
          exact ⟨d₁, s₁, s₂, hfirst.trans hspliced, hattempted⟩

variable {supplies : List Supply} {a : Attempt} {c : Compression}

/-- A compressed primitive is refused, or else the decoder is called with bytes that its view has by
then. -/
theorem Attempted.viewBytes (h : Attempted decode d s a s') (hc : compression? a.primitive = some c) :
    (∃ problem, d.viewBytes c.bufferView = .error problem ∧ a.outcome = .refused problem) ∨
      ∃ handed, d.viewBytes c.bufferView = .ok handed ∧ a.outcome.handed? = some handed := by
  cases h with
  | plain uncompressed => cases uncompressed.symm.trans hc
  | refused compressed bytes =>
      obtain rfl := Option.some.inj (compressed.symm.trans hc)
      exact .inl ⟨_, bytes, rfl⟩
  | failed compressed bytes answer =>
      obtain rfl := Option.some.inj (compressed.symm.trans hc)
      exact .inr ⟨_, bytes, rfl⟩
  | decoded compressed bytes answer =>
      obtain rfl := Option.some.inj (compressed.symm.trans hc)
      exact .inr ⟨_, bytes, rfl⟩

theorem Attempted.handed?_eq (h : Attempted decode d s a s') (hc : compression? a.primitive = some c) :
    a.outcome.handed? = (d.viewBytes c.bufferView).toOption := by
  rcases h.viewBytes hc with ⟨problem, hbytes, houtcome⟩ | ⟨handed, hbytes, hhanded⟩
  · rw [hbytes, houtcome]
    rfl
  · rw [hbytes, hhanded]
    rfl

theorem Attempted.outcome_eq_refused_iff (h : Attempted decode d s a s')
    (hc : compression? a.primitive = some c) {problem : BufferViewProblem Int} :
    a.outcome = .refused problem ↔ d.viewBytes c.bufferView = .error problem := by
  rcases h.viewBytes hc with ⟨problem', hbytes, houtcome⟩ | ⟨handed, hbytes, hhanded⟩
  · rw [hbytes, houtcome, Outcome.refused.injEq, Except.error.injEq]
  · rw [hbytes]
    refine iff_of_false (fun houtcome => ?_) nofun
    rw [houtcome] at hhanded
    cases hhanded

theorem Attempted.of_not_owns (hspliced : Spliced d d' supplies) (h : Attempted decode d' s a s')
    (hc : compression? a.primitive = some c) (hindex : ¬d.OwnsView c.bufferView) :
    a.outcome.handed? = stray? d supplies c.bufferView ∧
      (a.outcome = .refused (.noView c.bufferView) ↔ stray? d supplies c.bufferView = none) := by
  rw [h.handed?_eq hc, h.outcome_eq_refused_iff hc, hspliced.viewBytes_of_not_owns hindex]
  cases stray? d supplies c.bufferView with
  | none => exact ⟨rfl, iff_of_true rfl rfl⟩
  | some content => exact ⟨rfl, iff_of_false nofun nofun⟩

/-! ### Images -/

theorem payload_congr {m : Type → Type} [Monad m] {loader : Option (Loader m)} {o : ReadOptions}
    {image : ImageSource} {index : Int} (hi : image.bufferView = some index)
    (h : d.viewBytes index = d'.viewBytes index) :
    payload loader o d image = payload loader o d' image := by
  simp only [payload, hi, h]

theorem run_payload (hspliced : Spliced d d' supplies) (loader : Option (Loader (StateM σ)))
    (o : ReadOptions) {image : ImageSource} {index : Int} (hi : image.bufferView = some index)
    (hindex : ¬d.OwnsView index) (t : σ) :
    (payload loader o d' image).run t =
      (match stray? d supplies index with
        | none => .failed (.bufferView (.noView index))
        | some content => .data content image.mimeType, t) := by
  simp only [payload, hi, hspliced.viewBytes_of_not_owns hindex]
  cases stray? d supplies index <;> rfl

/-- An image whose payload fails is left as it is, and nobody is called for it. -/
theorem decodeImage_of_failed {loader : Option (Loader (StateM σ))}
    {transcoder : Option (Image.Transcoder (StateM σ))} {o : ReadOptions} {image : ImageSource}
    {problem : ImageProblem} {t : σ}
    (h : (payload loader o d image).run t = (.failed problem, t)) :
    ∃ problem, (decodeImage loader transcoder o d image).run t = ((image, some problem), t) := by
  rw [decodeImage]
  split_ifs
  · exact ⟨_, rfl⟩
  · rw [run_bind, h]
    exact ⟨_, rfl⟩

end

/-- What becomes of references to buffer views that a document does not have. A primitive whose
compressed bytes lie in a view of the document is decoded from this view. With any other reference it
is refused exactly if the index is negative or past all views that have been appended before; else the
decoder is called with content that it has made itself. The same holds of images, after all
primitives. -/
theorem dangling_refused_iff {σ : Type} (decode : Decoder (StateM σ)) (d : Document) (s : σ) :
    ∃ attempts d' s', Run decode d s attempts d' s' ∧
      attempts.map (fun a => (a.place, a.primitive)) = located d.meshes ∧
      (decodeAll (some decode) d).run s =
        (⟨d', attempts.countP (·.outcome.succeeded), attempts.flatMap fun a =>
          (a.problems d.accessors.length).map (a.place, ·)⟩, s') ∧
      (∀ before a after c, attempts = before ++ a :: after → compression? a.primitive = some c →
        let supplies := before.flatMap (Attempt.supplies d.accessors.length)
        (d.OwnsView c.bufferView →
          a.outcome.handed? = ((backed d supplies).viewBytes c.bufferView).toOption) ∧
        (¬d.OwnsView c.bufferView →
          a.outcome.handed? = stray? d supplies c.bufferView ∧
          (a.outcome = .refused (.noView c.bufferView) ↔
            c.bufferView < 0 ∨
              (d.bufferViews.length + supplies.length : Nat) ≤ c.bufferView))) ∧
      ∀ (loader : Option (Loader (StateM σ))) (transcoder : Option (Image.Transcoder (StateM σ)))
        (o : ReadOptions) (image : ImageSource) (index : Int) (t : σ),
        image.bufferView = some index →
        let supplies := attempts.flatMap (Attempt.supplies d.accessors.length)
        (d.OwnsView index →
          payload loader o d' image = payload loader o (backed d supplies) image) ∧
        (¬d.OwnsView index →
          (index < 0 ∨ (d.bufferViews.length + supplies.length : Nat) ≤ index →
            ∃ problem, (decodeImage loader transcoder o d' image).run t =
              ((image, some problem), t)) ∧
          ∀ content, stray? d supplies index = some content →
            (payload loader o d' image).run t = (.data content image.mimeType, t)) := by
  obtain ⟨attempts, d', s', hrun, hprimitives, hresult⟩ := exists_run_decodeAll decode d s
  refine ⟨attempts, d', s', hrun, hprimitives, hresult, ?_, ?_⟩
  · rintro before a after c rfl hc
    obtain ⟨d₁, s₁, s₂, hspliced, hattempted⟩ := hrun.at
    refine ⟨fun hindex => ?_, fun hindex => ?_⟩
    · rw [hattempted.handed?_eq hc, hspliced.viewBytes_of_owns hindex]
    · rw [← stray?_eq_none_iff hindex]
      exact hattempted.of_not_owns hspliced hc hindex
  · intro loader transcoder o image index t hi
    refine ⟨fun hindex => payload_congr hi (hrun.spliced.viewBytes_of_owns hindex),
      fun hindex => ⟨fun hpast => ?_, ?_⟩⟩
    · rw [← stray?_eq_none_iff hindex] at hpast
      have hfailed := run_payload hrun.spliced loader o hi hindex t
      rw [hpast] at hfailed
      exact decodeImage_of_failed hfailed
    · intro content hcontent
      rw [run_payload hrun.spliced loader o hi hindex, hcontent]

/-- Of two compressed primitives, the second names a view that the document does not have. It is not
refused: the decoder is called with the content that it has made for the first. -/
theorem decodeAll_resolves_dangling :
    let primitive (view : Int) : MeshPrimitive :=
      { attributes := [("POSITION", 0)]
        attachments := ({} : Attachments).add Schema.dracoMeshCompression.extensionName
          (.make Schema.dracoMeshCompression
            [("buffer_view", .ofInt view), ("attributes", .map [("POSITION", .ofInt 0)])] {}) }
    let d : Document :=
      { buffers := [{ byteLength := 2, data := some [1, 2] }]
        bufferViews := [{ buffer := 0, byteLength := 2 }]
        accessors := [{}]
        meshes := [{ primitives := [primitive 0, primitive 1] }] }
    let decode : Decoder (StateM (List Bytes)) := fun bs _ => do
      modify (· ++ [bs])
      pure (.ok { attributes := [("POSITION", 9 :: bs)] })
    ¬d.OwnsView 1 ∧ compression? (primitive 1) = some ⟨1, [("POSITION", 0)]⟩ ∧
      ((decodeAll (some decode) d).run []).1.problems = [] ∧
      ((decodeAll (some decode) d).run []).2 = [[1, 2], [9, 1, 2]] := by
  intro primitive d decode
  refine ⟨?_, rfl, rfl, rfl⟩
  rintro ⟨-, h⟩
  exact absurd h (by decide)

end Draco

end Gltf
