import Gltf.Proofs.Accessor.Extent
import Gltf.Reader
import Mathlib

/-!
What each stage of bringing in resources leaves of a document. Buffers gain content that is at
least as long as they declare, accessors are pointed at decoded content, images gain pixels; all
else stays as it was, and what is appended comes behind what was there.
-/

namespace Gltf

theorem run_bind {σ α β : Type} (x : StateM σ α) (f : α → StateM σ β) (s : σ) :
    (x >>= f).run s = (f (x.run s).1).run (x.run s).2 := rfl

theorem run_pure {σ α : Type} (a : α) (s : σ) : (pure a : StateM σ α).run s = (a, s) := rfl

theorem forall₂_set {α : Type} {R : α → α → Prop} (hrefl : ∀ a, R a a) {l : List α} {i : Nat}
    {a b : α} (hi : l[i]? = some a) (h : R a b) : List.Forall₂ R l (l.set i b) := by
  induction l generalizing i with
  | nil => cases hi
  | cons head tail ih =>
      cases i with
      | zero =>
          cases hi
          exact .cons h (List.forall₂_same.2 fun a _ => hrefl a)
      | succ i => exact .cons (hrefl head) (ih hi)

theorem exists_of_forall₂ {α β : Type} {R : α → β → Prop} {l : List α} {l' : List β}
    (h : List.Forall₂ R l l') {i : Nat} {a : α} (ha : l[i]? = some a) :
    ∃ b, l'[i]? = some b ∧ R a b := by
  induction h generalizing i with
  | nil => cases ha
  | cons hhead _ ih =>
      cases i with
      | zero =>
          cases ha
          exact ⟨_, rfl, hhead⟩
      | succ i => exact ih ha

theorem forall₂_trans {α : Type} {R : α → α → Prop}
    (htrans : ∀ a b c, R a b → R b c → R a c) {l l' l'' : List α} (h : List.Forall₂ R l l')
    (h' : List.Forall₂ R l' l'') : List.Forall₂ R l l'' := by
  induction h generalizing l'' with
  | nil =>
      cases h'
      exact .nil
  | cons hhead _ ih =>
      cases h' with
      | cons hhead' htail' => exact .cons (htrans _ _ _ hhead hhead') (ih htail')

/-! ### One after the other -/

section
variable {α π : Type}

/-- Visits elements in their order; problems come with the index of their element. -/
def visitAll {m : Type → Type} [Monad m] (visit : α → m (α × Option π)) (i : Nat) :
    List α → m (List α × List (Nat × π))
  | [] => pure ([], [])
  | a :: as => do
      let (a, problem) ← visit a
      let (as, problems) ← visitAll visit (i + 1) as
      pure (a :: as, (problem.map (i, ·)).toList ++ problems)

theorem resolveBuffers_eq_visitAll {m : Type → Type} [Monad m] (loader : Option (Loader m))
    (ro : ReadOptions) (i : Nat) (buffers : List Buffer) :
    resolveBuffers loader ro i buffers = visitAll (resolveBuffer loader ro) i buffers := by
  induction buffers generalizing i with
  | nil => rfl
  | cons b bs ih =>
      rw [resolveBuffers, visitAll]
      simp only [ih]

theorem decodeImages_eq_visitAll {m : Type → Type} [Monad m] (loader : Option (Loader m))
    (transcoder : Option (Image.Transcoder m)) (ro : ReadOptions) (d : Document) (i : Nat)
    (images : List ImageSource) :
    decodeImages loader transcoder ro d i images =
      visitAll (decodeImage loader transcoder ro d) i images := by
  induction images generalizing i with
  | nil => rfl
  | cons image images ih =>
      rw [decodeImages, visitAll]
      simp only [ih]

variable {σ : Type} {visit : α → StateM σ (α × Option π)}

/-- What holds of each element and what becomes of it holds of all of them. -/
theorem forall₂_visitAll {R : α → α → Prop} (h : ∀ a s, R a ((visit a).run s).1.1) (i : Nat)
    (as : List α) (s : σ) : List.Forall₂ R as ((visitAll visit i as).run s).1.1 := by
  induction as generalizing i s with
  | nil => exact .nil
  | cons a as ih =>
      simp only [visitAll, run_bind, run_pure]
      exact .cons (h a s) (ih (i + 1) _)

/-- A problem comes from the visit to the element with its index. -/
theorem exists_of_mem_problems {i k : Nat} {as : List α} {p : π} {s : σ}
    (h : (k, p) ∈ ((visitAll visit i as).run s).1.2) :
    ∃ j a s₁, k = i + j ∧ as[j]? = some a ∧ ((visit a).run s₁).1.2 = some p := by
  induction as generalizing i s with
  | nil => cases h
  | cons a as ih =>
      simp only [visitAll, run_bind, run_pure, List.mem_append, Option.mem_toList] at h
      rcases h with hfirst | hrest
      · obtain ⟨p', hp, heq⟩ := Option.map_eq_some_iff.1 hfirst
        cases heq
        exact ⟨0, a, s, rfl, rfl, hp⟩
      · obtain ⟨j, a', s₁, rfl, ha', hp⟩ := ih hrest
        exact ⟨j + 1, a', s₁, by omega, ha', hp⟩

end

/-! ### Buffers -/

/-- Whatever content a buffer has, it is at least as long as the buffer declares. -/
def Buffer.Covered (b : Buffer) : Prop := ∀ data, b.data = some data → b.byteLength ≤ data.length

/-- A buffer before and after its content is brought in. -/
structure Buffer.Gains (b b' : Buffer) : Prop where
  rest : b' = { b with uri := b'.uri, data := b'.data }
  covered : b.Covered → b'.Covered

namespace Buffer.Gains

theorem refl (b : Buffer) : b.Gains b := ⟨rfl, id⟩

theorem trans {b b' b'' : Buffer} (h : b.Gains b') (h' : b'.Gains b'') : b.Gains b'' := by
  refine ⟨?_, h'.covered ∘ h.covered⟩
  rw [h'.rest, h.rest]

theorem byteLength_eq {b b' : Buffer} (h : b.Gains b') : b'.byteLength = b.byteLength := by
  rw [h.rest]

theorem of_content {b : Buffer} {data : Bytes} (uri : Option String)
    (h : b.byteLength ≤ data.length) : b.Gains { b with uri, data := some data } := by
  refine ⟨rfl, fun _ data' hdata => ?_⟩
  cases hdata
  exact h

end Buffer.Gains

/-- Buffers and what became of them, one for one. -/
abbrev AllGain (buffers buffers' : List Buffer) : Prop :=
  List.Forall₂ Buffer.Gains buffers buffers'

theorem AllGain.refl (buffers : List Buffer) : AllGain buffers buffers :=
  List.forall₂_same.2 fun b _ => .refl b

theorem AllGain.trans {bs bs' bs'' : List Buffer} (h : AllGain bs bs') (h' : AllGain bs' bs'') :
    AllGain bs bs'' :=
  forall₂_trans (R := Buffer.Gains) (fun _ _ _ => .trans) h h'

theorem AllGain.covered {bs bs' : List Buffer} (h : AllGain bs bs')
    (hbs : ∀ b ∈ bs, b.Covered) : ∀ b ∈ bs', b.Covered := by
  induction h with
  | nil => exact hbs
  | cons hhead _ ih =>
      rw [List.forall_mem_cons] at hbs ⊢
      exact ⟨hhead.covered hbs.1, ih hbs.2⟩

theorem length_slice_of_le {bs : Bytes} {stop : Int} (h : stop ≤ bs.length) :
    stop ≤ (Bytes.slice bs 0 stop).length := by
  simp only [Bytes.slice, Bytes.place, List.length_take, List.length_drop]
  split_ifs <;> omega

theorem gains_bindBinary (chunk : Bytes) (buffers : List Buffer) :
    AllGain buffers (bindBinary chunk buffers).1 := by
  cases buffers with
  | nil => exact .nil
  | cons b bs =>
      rw [bindBinary]
      split_ifs with huri hlong hshort
      · exact .refl _
      · exact .refl _
      · exact .refl _
      · exact .cons (.of_content b.uri (length_slice_of_le (not_lt.1 hlong)))
          (AllGain.refl bs)

section
variable {σ : Type} (loader : Option (Loader (StateM σ))) (ro : ReadOptions)

theorem gains_resolveBuffer (b : Buffer) (s : σ) :
    b.Gains ((resolveBuffer loader ro b).run s).1.1 := by
  rw [resolveBuffer.eq_def]
  split
  · rw [run_bind]
    split
    · exact .refl b
    · exact .refl b
    · split_ifs with hshort
      · exact .refl b
      · exact .of_content _ (not_lt.1 hshort)
  · exact .refl b

theorem gains_resolveBuffers (i : Nat) (buffers : List Buffer) (s : σ) :
    AllGain buffers ((resolveBuffers loader ro i buffers).run s).1.1 := by
  rw [resolveBuffers_eq_visitAll]
  exact forall₂_visitAll (gains_resolveBuffer loader ro) i buffers s

end

namespace Meshopt

/-- Splicing never shortens, wherever the offset lies. -/
theorem length_le_spliceAt (data : Bytes) (offset : Int) (content : Bytes) :
    data.length ≤ (spliceAt data offset content).length := by
  simp only [spliceAt, Bytes.splice, Bytes.place, List.length_append, List.length_replicate,
    List.length_take, List.length_drop]
  split_ifs <;> omega

theorem le_length_of_dataOrZeros {b : Buffer} {data : Bytes} (hb : b.Covered)
    (h : dataOrZeros b = .ok data) : b.byteLength ≤ data.length := by
  rw [dataOrZeros] at h
  split at h
  · rename_i found
    cases h
    exact hb _ found
  · split_ifs at h
    cases h
    rw [List.length_replicate]
    omega

/-! Decoding touches buffers by putting contents into their data, so all that survives this
survives decoding. -/

section
variable {σ : Type} {R : Buffer → Buffer → Prop} (hrefl : ∀ b, R b b)
  (hput : ∀ b data offset content, dataOrZeros b = .ok data →
    R b { b with data := some (spliceAt data offset content) })
include hrefl hput

theorem forall₂_store {buffers buffers' : List Buffer} {view : BufferView} {c : Compression}
    {target : Buffer} {content : Bytes} (found : elementAt? buffers view.buffer = some target)
    (h : store buffers view target c content = .ok (.decoded buffers')) :
    List.Forall₂ R buffers buffers' := by
  obtain ⟨n, hn, htarget⟩ := elementAt?_eq_some found
  rw [store] at h
  split_ifs at h with hsize
  · cases h
  · split at h
    · cases h
    · rename_i data hdata
      cases h
      rw [hn, Int.toNat_natCast]
      exact forall₂_set hrefl htarget (hput target data view.byteOffset content hdata)

theorem forall₂_decodeView {decoder : Option (Decoder (StateM σ))} {buffers buffers' : List Buffer}
    {view : BufferView} {c : Compression} {s : σ}
    (h : ((decodeView decoder buffers view c).run s).1 = .ok (.decoded buffers')) :
    List.Forall₂ R buffers buffers' := by
  rw [decodeView.eq_def] at h
  split at h
  · cases h
  · split at h
    · cases h
    · split at h
      · cases h
      · rename_i target found
        rw [run_bind] at h
        split at h
        · cases h
        · exact forall₂_store hrefl hput found h

theorem forall₂_decodeViews (htrans : ∀ a b c, R a b → R b c → R a c)
    (decoder : Option (Decoder (StateM σ))) (i : Nat) (r : Result) (views : List BufferView)
    (s : σ) : List.Forall₂ R r.buffers ((decodeViews decoder i r views).run s).1.buffers := by
  induction views generalizing i r s with
  | nil => exact List.forall₂_same.2 fun b _ => hrefl b
  | cons view views ih =>
      rw [decodeViews]
      cases compression? view with
      | none => exact ih (i + 1) r s
      | some c =>
          rw [run_bind]
          cases hanswer : ((decodeView decoder r.buffers view c).run s).1 with
          | error cause => exact List.forall₂_same.2 fun b _ => hrefl b
          | ok outcome =>
              cases outcome with
              | problem problem =>
                  exact ih (i + 1) { r with problems := r.problems ++ [(i, problem)] } _
              | decoded buffers' =>
                  exact forall₂_trans htrans (forall₂_decodeView hrefl hput hanswer)
                    (ih (i + 1) { r with buffers := buffers', decoded := r.decoded + 1 } _)

end

theorem gains_decodeViews {σ : Type} (decoder : Option (Decoder (StateM σ))) (i : Nat) (r : Result)
    (views : List BufferView) (s : σ) :
    AllGain r.buffers ((decodeViews decoder i r views).run s).1.buffers := by
  refine forall₂_decodeViews Buffer.Gains.refl ?_ (fun _ _ _ => .trans) decoder i r views s
  intro b data offset content hdata
  refine ⟨rfl, fun hcovered spliced hspliced => ?_⟩
  cases hspliced
  have hgrown := length_le_spliceAt data offset content
  have hlong := le_length_of_dataOrZeros hcovered hdata
  exact hlong.trans (Int.ofNat_le.2 hgrown)

end Meshopt

/-! ### Decoded primitives -/

/-- A buffer that has as much content as it declares. -/
def Buffer.Filled (b : Buffer) : Prop := ∃ data, b.data = some data ∧ b.byteLength = data.length

theorem Buffer.Filled.covered {b : Buffer} (h : b.Filled) : b.Covered := by
  intro data hdata
  obtain ⟨data', hdata', hlength⟩ := h
  rw [hdata, Option.some.injEq] at hdata'
  rw [hlength, hdata']

/-- An accessor and what became of it when it was pointed at decoded content. -/
def Accessor.Redirected (a a' : Accessor) : Prop :=
  a' = { a with bufferView := a'.bufferView, byteOffset := a'.byteOffset }

theorem Accessor.Redirected.trans {a a' a'' : Accessor} (h : a.Redirected a')
    (h' : a'.Redirected a'') : a.Redirected a'' := by
  rw [Accessor.Redirected] at *
  rw [h', h]

namespace Draco

/-- A document and one to which decoded content has been appended. -/
structure Appends (d d' : Document) : Prop where
  rest : d' = { d with
    accessors := d'.accessors, buffers := d'.buffers, bufferViews := d'.bufferViews }
  accessors : List.Forall₂ Accessor.Redirected d.accessors d'.accessors
  buffers : ∃ more, d'.buffers = d.buffers ++ more ∧ ∀ b ∈ more, b.Filled
  bufferViews : d.bufferViews <+: d'.bufferViews

theorem Appends.refl (d : Document) : Appends d d :=
  ⟨rfl, List.forall₂_same.2 fun _ _ => rfl, ⟨[], by simp, by simp⟩, List.prefix_rfl⟩

theorem Appends.trans {d d' d'' : Document} (h : Appends d d') (h' : Appends d' d'') :
    Appends d d'' := by
  obtain ⟨more, hmore, hfilled⟩ := h.buffers
  obtain ⟨more', hmore', hfilled'⟩ := h'.buffers
  refine ⟨?_, ?_, ⟨more ++ more', ?_, ?_⟩, h.bufferViews.trans h'.bufferViews⟩
  · rw [h'.rest, h.rest]
  · exact forall₂_trans (R := Accessor.Redirected) (fun _ _ _ => .trans) h.accessors h'.accessors
  · rw [hmore', hmore, List.append_assoc]
  · intro b hb
    exact (List.mem_append.1 hb).elim (hfilled b) (hfilled' b)

theorem appends_fill (d : Document) (t : Target) : Appends d (fill d t).1 := by
  rw [fill.eq_def]
  split
  · exact .refl d
  · rename_i content _
    split
    · exact .refl d
    · rename_i accessor found
      obtain ⟨n, hn, haccessor⟩ := elementAt?_eq_some found
      refine ⟨rfl, ?_, ⟨_, rfl, ?_⟩, List.prefix_append _ _⟩
      · rw [hn, Int.toNat_natCast]
        exact forall₂_set (R := Accessor.Redirected) (fun _ => rfl) haccessor rfl
      · intro b hb
        obtain rfl := List.mem_singleton.1 hb
        exact ⟨content, rfl, rfl⟩

theorem appends_fillAll (d : Document) (ts : List Target) : Appends d (fillAll d ts).1 := by
  induction ts generalizing d with
  | nil => exact .refl d
  | cons t ts ih => exact (appends_fill d t).trans (ih (fill d t).1)

section
variable {σ : Type} (decoder : Option (Decoder (StateM σ))) (r : Result)

theorem appends_decodePrimitive (place : Location) (p : MeshPrimitive) (s : σ) :
    Appends r.document ((decodePrimitive decoder place r p).run s).1.document := by
  rw [decodePrimitive.eq_def]
  split
  · exact .refl _
  · exact .refl _
  · rename_i c decode
    rw [run_bind]
    split
    · exact .refl _
    · exact appends_fillAll _ _

theorem appends_decodePrimitives (primitives : List (Location × MeshPrimitive)) (s : σ) :
    Appends r.document ((decodePrimitives decoder r primitives).run s).1.document := by
  induction primitives generalizing r s with
  | nil => exact .refl _
  | cons primitive primitives ih =>
      obtain ⟨place, p⟩ := primitive
      rw [decodePrimitives, run_bind]
      exact (appends_decodePrimitive decoder r place p s).trans (ih _ _)

end

end Draco

/-! ### Images -/

/-- An image source and what became of it when its pixels were decoded. -/
def ImageSource.Gains (i i' : ImageSource) : Prop :=
  i' = { i with uri := i'.uri, image := i'.image }

section
variable {σ : Type} (loader : Option (Loader (StateM σ)))
  (transcoder : Option (Image.Transcoder (StateM σ))) (ro : ReadOptions) (d : Document)

theorem gains_decodeImage (i : ImageSource) (s : σ) :
    i.Gains ((decodeImage loader transcoder ro d i).run s).1.1 := by
  rw [decodeImage]
  split_ifs with hrefused
  · rfl
  · rw [run_bind]
    split
    · rfl
    · rfl
    · rw [run_bind]
      split <;> rfl

theorem gains_decodeImages (index : Nat) (images : List ImageSource) (s : σ) :
    List.Forall₂ ImageSource.Gains images
      ((decodeImages loader transcoder ro d index images).run s).1.1 := by
  rw [decodeImages_eq_visitAll]
  exact forall₂_visitAll (gains_decodeImage loader transcoder ro d) index images s

end

/-! ### Documents -/

/-- A document before and after its resources are brought in. -/
structure Document.Attached (d d' : Document) : Prop where
  rest : d' = { d with
    accessors := d'.accessors, buffers := d'.buffers, bufferViews := d'.bufferViews
    images := d'.images }
  accessors : List.Forall₂ Accessor.Redirected d.accessors d'.accessors
  buffers : ∃ own more, d'.buffers = own ++ more ∧ AllGain d.buffers own ∧ ∀ b ∈ more, b.Filled
  bufferViews : d.bufferViews <+: d'.bufferViews
  images : List.Forall₂ ImageSource.Gains d.images d'.images

end Gltf
