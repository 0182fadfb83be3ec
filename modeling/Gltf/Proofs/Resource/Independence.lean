import Gltf.Proofs.Resource.Atomicity
import Mathlib

/-!
Compressed buffer views that keep out of each other's way: their contents lie apart, and none is decoded
into a buffer that compressed bytes are taken from. Each is then decoded as it would be on its own, and
what the buffers hold in the end does not depend on the order of the views.
-/

namespace Gltf.Meshopt

/-! ### Data with several contents in it -/

/-- Content and where it is put. -/
structure Piece where
  offset : ℕ
  content : Bytes

namespace Piece

def stop (p : Piece) : ℕ := p.offset + p.content.length

/-- The byte at a place is put there by a piece. -/
def Covers (p : Piece) (n : ℕ) : Prop := p.offset ≤ n ∧ n < p.stop

/-- No place gets bytes of both pieces. -/
def Apart (p q : Piece) : Prop := ∀ n, p.Covers n → ¬q.Covers n

theorem Apart.symm {p q : Piece} (h : p.Apart q) : q.Apart p := fun n hq hp => h n hp hq

end Piece

/-- The data with pieces put in one after the other. -/
def spliceAll (data : Bytes) (pieces : List Piece) : Bytes :=
  pieces.foldl (fun data p => spliceAt data p.offset p.content) data

section
variable {data : Bytes} {pieces pieces' : List Piece} {p : Piece} {n : ℕ}

theorem length_spliceAt_natCast (data : Bytes) (p : Piece) :
    (spliceAt data p.offset p.content).length = max data.length p.stop := by
  have hlength := (put_spliceAt_natCast data p.offset p.content).length
  rw [Piece.stop]
  omega

theorem getD_spliceAt_of_covers (h : p.Covers n) :
    (spliceAt data p.offset p.content).getD n 0 = p.content.getD (n - p.offset) 0 := by
  obtain ⟨hoffset, hstop⟩ := h
  rw [Piece.stop] at hstop
  obtain ⟨m, hm, hbyte⟩ := (put_spliceAt_natCast data p.offset p.content).inside (n - p.offset) (by omega)
  obtain rfl : m = n := by omega
  simp [List.getD_eq_getElem?_getD, hbyte]

/-- Where no piece lies there is what was there before, and zero behind it. -/
theorem getD_spliceAt_of_not_covers (h : ¬p.Covers n) :
    (spliceAt data p.offset p.content).getD n 0 = data.getD n 0 := by
  have hput := put_spliceAt_natCast data p.offset p.content
  have hlength := length_spliceAt_natCast data p
  simp only [Piece.Covers, Piece.stop] at h hlength
  simp only [List.getD_eq_getElem?_getD]
  by_cases hn : n < data.length
  · rw [hput.rest n hn (by omega)]
  · rw [List.getElem?_eq_none (not_lt.1 hn)]
    by_cases hgap : n < p.offset
    · rw [hput.gap n (not_lt.1 hn) (by omega)]
      rfl
    · rw [List.getElem?_eq_none (by omega)]

theorem spliceAll_cons (data : Bytes) (p : Piece) (pieces : List Piece) :
    spliceAll data (p :: pieces) = spliceAll (spliceAt data p.offset p.content) pieces := rfl

theorem length_spliceAll (data : Bytes) (pieces : List Piece) :
    (spliceAll data pieces).length = (pieces.map Piece.stop).foldl max data.length := by
  induction pieces generalizing data with
  | nil => rfl
  | cons p pieces ih =>
      rw [spliceAll_cons, ih, length_spliceAt_natCast, List.map_cons, List.foldl_cons]

theorem length_le_spliceAll (data : Bytes) (pieces : List Piece) :
    data.length ≤ (spliceAll data pieces).length := by
  induction pieces generalizing data with
  | nil => exact le_refl _
  | cons p pieces ih =>
      have hfirst := length_spliceAt_natCast data p
      exact le_trans (by omega) (ih (spliceAt data p.offset p.content))

theorem stop_le_length_spliceAll (hp : p ∈ pieces) :
    p.stop ≤ (spliceAll data pieces).length := by
  induction pieces generalizing data with
  | nil => cases hp
  | cons q pieces ih =>
      rcases List.mem_cons.1 hp with rfl | hp
      · have hfirst := length_spliceAt_natCast data p
        exact le_trans (by omega) (length_le_spliceAll (spliceAt data p.offset p.content) pieces)
      · exact ih hp

theorem getD_spliceAll_of_not_covers (h : ∀ p ∈ pieces, ¬p.Covers n) :
    (spliceAll data pieces).getD n 0 = data.getD n 0 := by
  induction pieces generalizing data with
  | nil => rfl
  | cons p pieces ih =>
      rw [List.forall_mem_cons] at h
      rw [spliceAll_cons, ih h.2, getD_spliceAt_of_not_covers h.1]

/-- Of pieces that lie apart none is put over another. -/
theorem getD_spliceAll_of_mem (hapart : pieces.Pairwise Piece.Apart) (hp : p ∈ pieces)
    (hn : p.Covers n) : (spliceAll data pieces).getD n 0 = p.content.getD (n - p.offset) 0 := by
  induction pieces generalizing data with
  | nil => cases hp
  | cons q pieces ih =>
      rw [List.pairwise_cons] at hapart
      rw [spliceAll_cons]
      rcases List.mem_cons.1 hp with rfl | hp
      · rw [getD_spliceAll_of_not_covers fun q hq => hapart.1 q hq n hn, getD_spliceAt_of_covers hn]
      · exact ih hapart.2 hp

theorem spliceAll_perm (hapart : pieces.Pairwise Piece.Apart) (h : pieces.Perm pieces') :
    spliceAll data pieces = spliceAll data pieces' := by
  have hlength : (spliceAll data pieces).length = (spliceAll data pieces').length := by
    rw [length_spliceAll, length_spliceAll]
    exact (h.map Piece.stop).foldl_eq data.length
  have hapart' := h.pairwise hapart Piece.Apart.symm
  apply List.ext_getElem hlength
  intro n hn hn'
  rw [← List.getD_eq_getElem _ 0 hn, ← List.getD_eq_getElem _ 0 hn']
  by_cases hcovered : ∃ p ∈ pieces, p.Covers n
  · obtain ⟨p, hp, hcovers⟩ := hcovered
    rw [getD_spliceAll_of_mem hapart hp hcovers,
      getD_spliceAll_of_mem hapart' (h.mem_iff.1 hp) hcovers]
  · push Not at hcovered
    rw [getD_spliceAll_of_not_covers hcovered,
      getD_spliceAll_of_not_covers fun p hp => hcovered p (h.mem_iff.2 hp)]

end

/-! ### Buffers with all contents in them -/

/-- A decoder whose answer is determined by what it is called with. -/
abbrev PureDecoder := Bytes → Int → Int → Mode → Filter → Except String Bytes

def PureDecoder.lift {σ : Type} (decode : PureDecoder) : Decoder (StateM σ) :=
  fun bs count stride mode filter => pure (decode bs count stride mode filter)

/-- What a compressed view is decoded to on buffers. -/
def content? (decode : PureDecoder) (buffers : List Buffer) (c : Compression) : Option Bytes :=
  (source? buffers c).bind fun handed =>
    (decode handed c.count c.byteStride c.mode c.filter).toOption

def piece? (decode : PureDecoder) (buffers : List Buffer) (view : BufferView) : Option Piece :=
  (compression? view).bind fun c =>
    (content? decode buffers c).map fun content => ⟨view.byteOffset.toNat, content⟩

/-- The pieces that views put into the buffer at an index. -/
def piecesOf (decode : PureDecoder) (buffers : List Buffer) (views : List BufferView) (k : Int) :
    List Piece :=
  views.filterMap fun view => if view.buffer = k then piece? decode buffers view else none

/-- The data that pieces are put into: zeros where there are none. -/
def dataBefore (b : Buffer) : Bytes := b.data.getD (List.replicate b.byteLength.toNat 0)

/-- A buffer with pieces in its data; without any it is left as it is. -/
def withPieces (b : Buffer) : List Piece → Buffer
  | [] => b
  | p :: pieces => { b with data := some (spliceAll (dataBefore b) (p :: pieces)) }

/-- The buffers with the contents of all views in them. -/
def withContents (decode : PureDecoder) (buffers : List Buffer) (views : List BufferView) :
    List Buffer :=
  buffers.mapIdx fun k b => withPieces b (piecesOf decode buffers views k)

/-- A compressed view can be decoded on buffers. -/
structure Ready (decode : PureDecoder) (buffers : List Buffer) (view : BufferView) (c : Compression) :
    Prop where
  content : ∃ content, content? decode buffers c = some content ∧
    (content.length : Int) = c.count * c.byteStride
  target : ∃ target, elementAt? buffers view.buffer = some target ∧
    (target.data = none → 0 ≤ target.byteLength)

/-- No buffer is one that a view is decoded from and one that a view is decoded into. -/
def Unmixed (views : List BufferView) : Prop :=
  ∀ v ∈ views, ∀ w ∈ views, ∀ c, compression? v = some c → (compression? w).isSome →
    c.buffer ≠ w.buffer

theorem withPieces_of_ne_nil {b : Buffer} {pieces : List Piece} (h : pieces ≠ []) :
    withPieces b pieces = { b with data := some (spliceAll (dataBefore b) pieces) } := by
  cases pieces with
  | nil => exact absurd rfl h
  | cons p pieces => rfl

theorem withPieces_withPieces (b : Buffer) (pieces more : List Piece) :
    withPieces (withPieces b pieces) more = withPieces b (pieces ++ more) := by
  cases pieces with
  | nil => rfl
  | cons p pieces =>
      cases more with
      | nil => rw [List.append_nil]; rfl
      | cons q more => simp [withPieces, dataBefore, spliceAll]

theorem Previous.eq_dataBefore {b : Buffer} {data : Bytes} (h : Previous b data) :
    data = dataBefore b := by
  rw [dataBefore]
  cases hdata : b.data with
  | none => exact (h.zeros hdata).2
  | some found => exact h.present found hdata

theorem dataOrZeros_of_fillable {b : Buffer} (h : b.data = none → 0 ≤ b.byteLength) :
    dataOrZeros b = .ok (dataBefore b) := by
  rw [dataOrZeros, dataBefore]
  cases hdata : b.data with
  | none => simp [not_lt.2 (h hdata)]
  | some data => rfl

section
variable {decode : PureDecoder} {buffers : List Buffer} {v w : BufferView} {views : List BufferView}
  {c : Compression} {k : Int}

theorem piecesOf_cons (decode : PureDecoder) (buffers : List Buffer) (v : BufferView)
    (views : List BufferView) (k : Int) :
    piecesOf decode buffers (v :: views) k =
      piecesOf decode buffers [v] k ++ piecesOf decode buffers views k := by
  rw [piecesOf, piecesOf, piecesOf, ← List.filterMap_append, List.singleton_append]

/-- Views put nothing into a buffer that no compressed one of them belongs to. -/
theorem piecesOf_eq_nil (h : ∀ v ∈ views, (compression? v).isSome → v.buffer ≠ k) :
    piecesOf decode buffers views k = [] := by
  rw [piecesOf, List.filterMap_eq_nil_iff]
  intro v hv
  split_ifs with hk
  · rw [piece?, Option.not_isSome_iff_eq_none.1 fun hc => h v hv hc hk, Option.bind_none]
  · rfl

theorem withContents_eq_self (h : ∀ k : ℕ, piecesOf decode buffers views k = []) :
    withContents decode buffers views = buffers := by
  apply List.ext_getElem?
  intro k
  rw [withContents, List.getElem?_mapIdx, h]
  exact Option.map_id'

theorem elementAt?_withContents (decode : PureDecoder) (buffers : List Buffer)
    (views : List BufferView) (k : Int) :
    elementAt? (withContents decode buffers views) k =
      (elementAt? buffers k).map fun b => withPieces b (piecesOf decode buffers views k) := by
  rcases Int.lt_or_le k 0 with hneg | hk
  · simp [elementAt?, hneg]
  · obtain ⟨n, rfl⟩ := Int.eq_ofNat_of_zero_le hk
    rw [elementAt?_natCast, elementAt?_natCast, withContents, List.getElem?_mapIdx]

/-- What a view is decoded from is not changed by the views before it. -/
theorem content?_withContents (h : (compression? v).isSome → c.buffer ≠ v.buffer) :
    content? decode (withContents decode buffers [v]) c = content? decode buffers c := by
  have hsource : elementAt? (withContents decode buffers [v]) c.buffer =
      elementAt? buffers c.buffer := by
    rw [elementAt?_withContents, piecesOf_eq_nil (List.forall_mem_singleton.2 fun hv => (h hv).symm)]
    exact Option.map_id'
  rw [content?, content?, source?, source?, hsource]

theorem withContents_cons (h : Unmixed (v :: views)) :
    withContents decode (withContents decode buffers [v]) views =
      withContents decode buffers (v :: views) := by
  have hpieces (k : Int) : piecesOf decode (withContents decode buffers [v]) views k =
      piecesOf decode buffers views k := by
    apply List.filterMap_congr
    intro w hw
    rw [piece?, piece?]
    cases hc : compression? w with
    | none => rfl
    | some c =>
        have hcontent : content? decode (withContents decode buffers [v]) c =
            content? decode buffers c :=
          content?_withContents fun hv => h w (List.mem_cons_of_mem v hw) v List.mem_cons_self c hc hv
        rw [Option.bind_some, Option.bind_some, hcontent]
  simp only [withContents] at hpieces ⊢
  rw [List.mapIdx_mapIdx]
  congr
  funext k b
  rw [Function.comp_apply, hpieces, withPieces_withPieces, ← piecesOf_cons]

theorem ready_withContents_iff (hv : ∀ e, compression? v = some e → Ready decode buffers v e)
    (h : (compression? v).isSome → c.buffer ≠ v.buffer) :
    Ready decode (withContents decode buffers [v]) w c ↔ Ready decode buffers w c := by
  have hcontent : content? decode (withContents decode buffers [v]) c =
      content? decode buffers c := content?_withContents h
  constructor
  · rintro ⟨hready, target', htarget', hfillable⟩
    rw [hcontent] at hready
    rw [elementAt?_withContents] at htarget'
    obtain ⟨target, htarget, rfl⟩ := Option.map_eq_some_iff.1 htarget'
    refine ⟨hready, target, htarget, ?_⟩
    by_cases hown : (compression? v).isSome ∧ v.buffer = w.buffer
    · -- The buffer is that of the view before, which could be filled.
      obtain ⟨e, he⟩ := Option.isSome_iff_exists.1 hown.1
      obtain ⟨found, hfound, hfound'⟩ := (hv e he).target
      cases (hown.2 ▸ hfound).symm.trans htarget
      exact hfound'
    · rw [piecesOf_eq_nil (List.forall_mem_singleton.2 fun hc hk => hown ⟨hc, hk⟩)] at hfillable
      exact hfillable
  · rintro ⟨hready, target, htarget, hfillable⟩
    refine ⟨by rwa [hcontent], withPieces target (piecesOf decode buffers [v] w.buffer), ?_, ?_⟩
    · rw [elementAt?_withContents, htarget, Option.map_some]
    · cases piecesOf decode buffers [v] w.buffer with
      | nil => exact hfillable
      | cons p pieces => simp [withPieces]

end

/-! ### Runs of views that can be decoded -/

/-- Nothing is wrong with a view. -/
def Course.Clean (course : Course) : Prop := course.problem? = none ∧ course.cause? = none

section
variable {σ : Type} {decode : PureDecoder} {buffers buffers' : List Buffer} {s s' : σ} {t : Trial}
  {trials : List Trial}

theorem Called.content?_eq {view : BufferView} {c : Compression} {handed : Bytes} {target : Buffer}
    {answer : Except String Bytes}
    (h : Called (decode.lift (σ := σ)) buffers s view c handed target answer s') :
    content? decode buffers c = answer.toOption := by
  have hanswer : decode handed c.count c.byteStride c.mode c.filter = answer :=
    congrArg Prod.fst h.answer
  rw [content?, h.source, Option.bind_some, hanswer]

theorem Tried.clean_iff (h : Tried (some (decode.lift (σ := σ))) buffers s t s') :
    t.course.Clean ↔ ∀ c, compression? t.view = some c → Ready decode buffers t.view c := by
  cases h with
  | plain uncompressed =>
      refine iff_of_true ⟨rfl, rfl⟩ fun c hc => ?_
      cases uncompressed.symm.trans hc
  | undecodable compressed unconfigured => cases unconfigured
  | sourceless compressed configured source =>
      refine iff_of_false (by simp [Course.Clean, Course.problem?]) fun hready => ?_
      obtain ⟨content, hcontent, -⟩ := (hready _ compressed).content
      rw [content?, source] at hcontent
      cases hcontent
  | targetless compressed configured source target =>
      refine iff_of_false (by simp [Course.Clean, Course.problem?]) fun hready => ?_
      obtain ⟨found, hfound, -⟩ := (hready _ compressed).target
      cases target.symm.trans hfound
  | failed configured called =>
      cases configured
      refine iff_of_false (by simp [Course.Clean, Course.problem?]) fun hready => ?_
      obtain ⟨content, hcontent, -⟩ := (hready _ called.compressed).content
      cases called.content?_eq.symm.trans hcontent
  | misfit configured called size =>
      cases configured
      refine iff_of_false (by simp [Course.Clean, Course.problem?]) fun hready => size ?_
      obtain ⟨content, hcontent, hsize⟩ := (hready _ called.compressed).content
      cases called.content?_eq.symm.trans hcontent
      exact hsize
  | @broken view c _ handed target content cause _ configured called size unfilled =>
      cases configured
      refine iff_of_false (by simp [Course.Clean, Course.cause?]) fun hready => ?_
      obtain ⟨found, hfound, hfillable⟩ := (hready _ called.compressed).target
      cases called.target.symm.trans hfound
      cases (dataOrZeros_of_fillable hfillable).symm.trans unfilled
  | @stored view c _ handed target previous content _ configured called size filled =>
      cases configured
      refine iff_of_true ⟨rfl, rfl⟩ fun c' hc' => ?_
      obtain rfl := Option.some.inj (called.compressed.symm.trans hc')
      refine ⟨⟨content, called.content?_eq, size⟩, target, called.target, fun hnone => ?_⟩
      exact ((previous_of_dataOrZeros filled).zeros hnone).1

theorem Tried.after_eq_withContents (h : Tried (some (decode.lift (σ := σ))) buffers s t s')
    (hclean : t.course.Clean) (hoffset : (compression? t.view).isSome → 0 ≤ t.view.byteOffset) :
    t.after buffers = withContents decode buffers [t.view] ∧ s' = s := by
  cases h with
  | plain uncompressed =>
      refine ⟨(withContents_eq_self fun k => piecesOf_eq_nil ?_).symm, rfl⟩
      simp [uncompressed]
  | @stored view c _ handed target previous content _ configured called size filled =>
      cases configured
      obtain ⟨n, hn, htarget⟩ := elementAt?_eq_some called.target
      obtain ⟨offset, ho⟩ : ∃ offset : ℕ, view.byteOffset = offset :=
        Int.eq_ofNat_of_zero_le (hoffset (Option.isSome_of_eq_some called.compressed))
      have hpiece : piece? decode buffers view = some ⟨offset, content⟩ := by
        simp [piece?, called.compressed, called.content?_eq, Except.toOption, ho]
      refine ⟨?_, congrArg Prod.snd called.answer.symm⟩
      apply List.ext_getElem?
      intro k
      rw [withContents, List.getElem?_mapIdx, Trial.after, hn, Int.toNat_natCast,
        List.getElem?_modify]
      by_cases hk : n = k
      · subst hk
        simp [htarget, piecesOf, hn, hpiece, withPieces, spliceAll, ho,
          (previous_of_dataOrZeros filled).eq_dataBefore]
      · simp [hk, piecesOf, hn, withPieces]
  | _ => simp [Course.Clean, Course.problem?, Course.cause?] at hclean

/-- A run of views that do not get mixed up is clean exactly if all views can be decoded on the buffers
that there are at first. -/
theorem Run.clean_iff (h : Run (some (decode.lift (σ := σ))) buffers s trials buffers' s')
    (hunmixed : Unmixed (trials.map Trial.view))
    (hoffset : ∀ t ∈ trials, (compression? t.view).isSome → 0 ≤ t.view.byteOffset) :
    (∀ t ∈ trials, t.course.Clean) ↔
      ∀ t ∈ trials, ∀ c, compression? t.view = some c → Ready decode buffers t.view c := by
  induction h with
  | nil => simp
  | @cons buffers _ s _ _ t trials first unbroken rest ih =>
      rw [List.forall_mem_cons] at hoffset
      rw [List.forall_mem_cons, List.forall_mem_cons, first.clean_iff]
      apply and_congr_right
      intro hready
      obtain ⟨hafter, -⟩ := first.after_eq_withContents (first.clean_iff.2 hready) hoffset.1
      rw [ih ?rest hoffset.2, hafter]
      case rest => exact fun v hv w hw => hunmixed v (List.mem_cons_of_mem _ hv) w (List.mem_cons_of_mem _ hw)
      refine forall₂_congr fun u hu => forall₂_congr fun c hc => ready_withContents_iff hready ?_
      exact hunmixed u.view (List.mem_cons_of_mem _ (List.mem_map_of_mem hu)) t.view
        List.mem_cons_self c hc
  | broken last _ =>
      rw [List.forall_mem_singleton, List.forall_mem_singleton]
      exact last.clean_iff

/-- What a clean run leaves. -/
theorem Run.eq_withContents (h : Run (some (decode.lift (σ := σ))) buffers s trials buffers' s')
    (hunmixed : Unmixed (trials.map Trial.view))
    (hoffset : ∀ t ∈ trials, (compression? t.view).isSome → 0 ≤ t.view.byteOffset)
    (hclean : ∀ t ∈ trials, t.course.Clean) :
    buffers' = withContents decode buffers (trials.map Trial.view) ∧ s' = s := by
  induction h with
  | nil => exact ⟨(withContents_eq_self fun k => rfl).symm, rfl⟩
  | @cons buffers _ s _ _ t trials first unbroken rest ih =>
      rw [List.forall_mem_cons] at hoffset hclean
      obtain ⟨hafter, rfl⟩ := first.after_eq_withContents hclean.1 hoffset.1
      obtain ⟨hbuffers, rfl⟩ := ih
        (fun v hv w hw => hunmixed v (List.mem_cons_of_mem _ hv) w (List.mem_cons_of_mem _ hw))
        hoffset.2 hclean.2
      refine ⟨?_, rfl⟩
      rw [hbuffers, hafter, List.map_cons]
      exact withContents_cons hunmixed
  | broken last cause =>
      rw [(hclean _ (List.mem_singleton_self _)).2] at cause
      cases cause

end

/-! ### Independent views -/

/-- The places in the data of its buffer that a view of the declared size takes. -/
def Compression.places (c : Compression) (view : BufferView) : Set Int :=
  Set.Ico view.byteOffset (view.byteOffset + c.count * c.byteStride)

/-- Compressed views that keep out of each other's way. -/
structure Independent (views : List BufferView) : Prop where
  offset : ∀ view ∈ views, (compression? view).isSome → 0 ≤ view.byteOffset
  disjoint : views.Pairwise fun v w => ∀ c e, compression? v = some c → compression? w = some e →
    v.buffer = w.buffer → Disjoint (c.places v) (e.places w)
  unmixed : Unmixed views

theorem Independent.perm {views views' : List BufferView} (h : Independent views)
    (hperm : views.Perm views') : Independent views' where
  offset view hview := h.offset view (hperm.mem_iff.2 hview)
  disjoint := hperm.pairwise h.disjoint fun hvw e c he hc hbuffer =>
    (hvw c e hc he hbuffer.symm).symm
  unmixed v hv w hw := h.unmixed v (hperm.mem_iff.2 hv) w (hperm.mem_iff.2 hw)

/-- The ends of the compressed views of the buffer at an index. -/
def stops (views : List BufferView) (k : Int) : List Int :=
  views.filterMap fun view =>
    if view.buffer = k then
      (compression? view).map fun c => view.byteOffset + c.count * c.byteStride
    else none

/-- The data of the buffer at an index before and after its compressed views are decoded. They reach as far
as the views do, and hold the content of each view in its place and what was there before, or zeros, in
all other places. -/
structure Assembled (decode : PureDecoder) (buffers : List Buffer) (views : List BufferView) (k : Int)
    (before after : Bytes) : Prop where
  length : (after.length : Int) = (stops views k).foldl max (before.length : Int)
  inside : ∀ view ∈ views, view.buffer = k → ∀ c, compression? view = some c →
    ∃ content, content? decode buffers c = some content ∧
      (content.length : Int) = c.count * c.byteStride ∧
      ∀ j < content.length, ∃ n : ℕ, (n : Int) = view.byteOffset + j ∧ after[n]? = content[j]?
  rest : ∀ n < after.length, (∀ view ∈ views, view.buffer = k → ∀ c, compression? view = some c →
    (n : Int) ∉ c.places view) → after[n]? = some (before.getD n 0)

section
variable {decode : PureDecoder} {buffers : List Buffer} {view : BufferView} {c : Compression}
  {views views' : List BufferView} {k : Int}

theorem Ready.exists_piece (h : Ready decode buffers view c) (hc : compression? view = some c)
    (hoffset : 0 ≤ view.byteOffset) :
    ∃ p, piece? decode buffers view = some p ∧ content? decode buffers c = some p.content ∧
      (p.offset : Int) = view.byteOffset ∧ (p.stop : Int) = view.byteOffset + c.count * c.byteStride := by
  obtain ⟨content, hcontent, hsize⟩ := h.content
  refine ⟨⟨view.byteOffset.toNat, content⟩, ?_, hcontent, Int.toNat_of_nonneg hoffset, ?_⟩
  · rw [piece?, hc, Option.bind_some, hcontent, Option.map_some]
  · rw [Piece.stop]
    push_cast
    rw [Int.toNat_of_nonneg hoffset, hsize]

variable (hoffset : ∀ view ∈ views, (compression? view).isSome → 0 ≤ view.byteOffset)
  (hready : ∀ view ∈ views, ∀ c, compression? view = some c → Ready decode buffers view c)
include hoffset hready

/-- The piece of a compressed view takes its places. -/
theorem exists_of_piece? {p : Piece} (hview : view ∈ views) (hp : piece? decode buffers view = some p) :
    ∃ c, compression? view = some c ∧ ∀ n : ℕ, p.Covers n ↔ (n : Int) ∈ c.places view := by
  obtain ⟨c, hc, -⟩ := Option.bind_eq_some_iff.1 hp
  obtain ⟨q, hq, -, ho, hstop⟩ :=
    (hready view hview c hc).exists_piece hc (hoffset view hview (Option.isSome_of_eq_some hc))
  obtain rfl := Option.some.inj (hp.symm.trans hq)
  refine ⟨c, hc, fun n => ?_⟩
  rw [Piece.Covers, Compression.places, Set.mem_Ico, ← hstop, ← ho, Nat.cast_le, Nat.cast_lt]

theorem map_stop_piecesOf :
    (piecesOf decode buffers views k).map (fun p => (p.stop : Int)) = stops views k := by
  rw [piecesOf, stops, List.map_filterMap]
  apply List.filterMap_congr
  intro view hview
  split_ifs
  · cases hc : compression? view with
    | none => rw [piece?, hc]; rfl
    | some c =>
        obtain ⟨p, hp, -, -, hstop⟩ :=
          (hready view hview c hc).exists_piece hc (hoffset view hview (Option.isSome_of_eq_some hc))
        rw [hp, Option.map_some, Option.map_some, hstop]
  · rfl

omit hoffset hready in
theorem foldl_max_natCast (l : List ℕ) (n : ℕ) :
    ((l.foldl max n : ℕ) : Int) = (l.map Nat.cast).foldl max (n : Int) := by
  induction l generalizing n with
  | nil => rfl
  | cons m l ih => rw [List.foldl_cons, ih, Nat.cast_max, List.map_cons, List.foldl_cons]

variable (hdisjoint : views.Pairwise fun v w => ∀ c e, compression? v = some c →
  compression? w = some e → v.buffer = w.buffer → Disjoint (c.places v) (e.places w))
include hdisjoint

theorem pairwise_apart_piecesOf : (piecesOf decode buffers views k).Pairwise Piece.Apart := by
  rw [piecesOf, List.pairwise_filterMap]
  apply hdisjoint.imp_of_mem
  intro v w hv hw hvw p hp q hq n hcovers hcovers'
  split_ifs at hp hq with hvk hwk
  obtain ⟨c, hc, hplaces⟩ := exists_of_piece? hoffset hready hv hp
  obtain ⟨e, he, hplaces'⟩ := exists_of_piece? hoffset hready hw hq
  exact Set.disjoint_left.1 (hvw c e hc he (hvk.trans hwk.symm)) ((hplaces n).1 hcovers)
    ((hplaces' n).1 hcovers')

theorem assembled_spliceAll (before : Bytes) :
    Assembled decode buffers views k before
      (spliceAll before (piecesOf decode buffers views k)) := by
  have hapart : (piecesOf decode buffers views k).Pairwise Piece.Apart :=
    pairwise_apart_piecesOf hoffset hready hdisjoint
  refine ⟨?length, fun view hview hk c hc => ?inside, fun n hn hfree => ?rest⟩
  case length =>
    rw [length_spliceAll, foldl_max_natCast, List.map_map, ← map_stop_piecesOf hoffset hready]
    rfl
  case inside =>
    obtain ⟨p, hp, hcontent, ho, hstop⟩ :=
      (hready view hview c hc).exists_piece hc (hoffset view hview (Option.isSome_of_eq_some hc))
    have hmem : p ∈ piecesOf decode buffers views k :=
      List.mem_filterMap.2 ⟨view, hview, by rw [if_pos hk, hp]⟩
    have hsize : (p.content.length : Int) = c.count * c.byteStride := by
      rw [Piece.stop] at hstop
      omega
    refine ⟨p.content, hcontent, hsize, fun j hj => ⟨p.offset + j, by push_cast; rw [ho], ?_⟩⟩
    have hcovers : p.Covers (p.offset + j) := ⟨by omega, by rw [Piece.stop]; omega⟩
    have hin : p.offset + j < (spliceAll before (piecesOf decode buffers views k)).length :=
      hcovers.2.trans_le (stop_le_length_spliceAll hmem)
    have hbyte : (spliceAll before (piecesOf decode buffers views k)).getD (p.offset + j) 0 =
        p.content.getD (p.offset + j - p.offset) 0 := getD_spliceAll_of_mem hapart hmem hcovers
    rw [Nat.add_sub_cancel_left, List.getD_eq_getElem _ _ hin, List.getD_eq_getElem _ _ hj] at hbyte
    rw [List.getElem?_eq_getElem hin, List.getElem?_eq_getElem hj, hbyte]
  case rest =>
    have hcovered : ∀ p ∈ piecesOf decode buffers views k, ¬p.Covers n := by
      intro p hp hcovers
      obtain ⟨view, hview, hpiece⟩ := List.mem_filterMap.1 hp
      split_ifs at hpiece with hk
      obtain ⟨c, hc, hplaces⟩ := exists_of_piece? hoffset hready hview hpiece
      exact hfree view hview hk c hc ((hplaces n).1 hcovers)
    rw [← getD_spliceAll_of_not_covers hcovered, List.getD_eq_getElem _ _ hn,
      List.getElem?_eq_getElem hn]

end

/-! ### Whole documents -/

section
variable {σ : Type} {decode : PureDecoder} {d : Document} {s s' : σ} {result : Result}
  {trials : List Trial}

theorem Decoded.clean_iff {decoder : Option (Decoder (StateM σ))}
    (h : Decoded decoder d s trials result s') :
    result.problems = [] ∧ result.fault = none ↔ ∀ t ∈ trials, t.course.Clean := by
  have hproblems : result.problems = [] ↔ ∀ t ∈ trials, t.course.problem? = none := by
    constructor
    · intro hnil t ht
      obtain ⟨i, hi⟩ := List.getElem?_of_mem ht
      have hmem := h.mem_problems_iff hi
      rw [hnil, List.map_nil] at hmem
      simpa using hmem
    · intro hnone
      rw [h.problems, List.filterMap_eq_nil_iff]
      rintro ⟨t, i⟩ hmem
      have ht := List.mem_of_getElem? (List.mk_mem_zipIdx_iff_getElem?.1 hmem)
      rw [hnone t ht, Option.map_none]
  rw [hproblems, h.fault, ← forall₂_and]
  rfl

/-- Views that can all be decoded on the buffers of their document are all decoded. -/
theorem run_decodeAll_of_ready (hd : Independent d.bufferViews)
    (hready : ∀ view ∈ d.bufferViews, ∀ c, compression? view = some c →
      Ready decode d.buffers view c) (s : σ) :
    (decodeAll (some decode.lift) d).run s =
      ({ buffers := withContents decode d.buffers d.bufferViews
         decoded := d.bufferViews.countP fun view => (compression? view).isSome }, s) := by
  obtain ⟨trials, result, s', h⟩ := exists_decoded (some decode.lift) d s
  have hmem (t : Trial) (ht : t ∈ trials) : t.view ∈ d.bufferViews :=
    h.views.subset (List.mem_map_of_mem ht)
  have hunmixed : Unmixed (trials.map Trial.view) := fun v hv w hw =>
    hd.unmixed v (h.views.subset hv) w (h.views.subset hw)
  have hoffset (t : Trial) (ht : t ∈ trials) := hd.offset t.view (hmem t ht)
  have hclean := (h.run.clean_iff hunmixed hoffset).2 fun t ht => hready t.view (hmem t ht)
  obtain ⟨hproblems, hfault⟩ := h.clean_iff.2 hclean
  have hviews := h.complete hfault
  obtain ⟨hbuffers, rfl⟩ := h.run.eq_withContents hunmixed hoffset hclean
  have hdecoded : result.decoded = d.bufferViews.countP fun view => (compression? view).isSome := by
    rw [h.decoded, ← hviews, List.countP_map]
    apply List.countP_congr
    intro t ht
    rw [h.run.succeeded_iff t ht (hclean t ht).2]
    simp [(hclean t ht).1]
  rw [hviews] at hbuffers
  rw [h.answer]
  obtain ⟨buffers, decoded, problems, fault⟩ := result
  simp_all

theorem withPieces_perm {pieces pieces' : List Piece} (b : Buffer)
    (hapart : pieces.Pairwise Piece.Apart) (h : pieces.Perm pieces') :
    withPieces b pieces = withPieces b pieces' := by
  cases pieces with
  | nil => rw [h.nil_eq]
  | cons p pieces =>
      cases pieces' with
      | nil => cases h.eq_nil
      | cons q pieces' => rw [withPieces, withPieces, spliceAll_perm hapart h]

/-- Only views that can be decoded on the buffers of their document are all decoded. -/
theorem ready_of_decodeAll (hd : Independent d.bufferViews)
    (h : (decodeAll (some decode.lift) d).run s = (result, s')) (hproblems : result.problems = [])
    (hfault : result.fault = none) : ∀ view ∈ d.bufferViews, ∀ c, compression? view = some c →
      Ready decode d.buffers view c := by
  obtain ⟨trials, result', s₁, hdecoded⟩ := exists_decoded (some decode.lift) d s
  cases hdecoded.answer.symm.trans h
  have hviews := hdecoded.complete hfault
  have hunmixed : Unmixed (trials.map Trial.view) := hviews ▸ hd.unmixed
  have hoffset (t : Trial) (ht : t ∈ trials) :=
    hd.offset t.view (hviews ▸ List.mem_map_of_mem ht)
  have hready := (hdecoded.run.clean_iff hunmixed hoffset).1 (hdecoded.clean_iff.1 ⟨hproblems, hfault⟩)
  intro view hview
  rw [← hviews] at hview
  obtain ⟨t, ht, rfl⟩ := List.mem_map.1 hview
  exact hready t ht

theorem withContents_perm {buffers : List Buffer} {views views' : List BufferView}
    (hviews : Independent views)
    (hready : ∀ view ∈ views, ∀ c, compression? view = some c → Ready decode buffers view c)
    (h : views.Perm views') : withContents decode buffers views = withContents decode buffers views' := by
  have hpieces (k : ℕ) (b : Buffer) : withPieces b (piecesOf decode buffers views k) =
      withPieces b (piecesOf decode buffers views' k) :=
    withPieces_perm b (pairwise_apart_piecesOf hviews.offset hready hviews.disjoint) (h.filterMap _)
  simp only [withContents, hpieces]

/-- What the views of a document leave in its buffers when all of them are decoded. -/
structure Settled (decode : PureDecoder) (d : Document) (buffers : List Buffer) : Prop where
  own : ∀ view ∈ d.bufferViews, (compression? view).isSome → ∃ b before after,
    elementAt? d.buffers view.buffer = some b ∧ Previous b before ∧
      elementAt? buffers view.buffer = some { b with data := some after } ∧
      Assembled decode d.buffers d.bufferViews view.buffer before after
  others : ∀ k, (∀ view ∈ d.bufferViews, (compression? view).isSome → view.buffer ≠ k) →
    elementAt? buffers k = elementAt? d.buffers k

theorem settled_withContents (hd : Independent d.bufferViews)
    (hready : ∀ view ∈ d.bufferViews, ∀ c, compression? view = some c →
      Ready decode d.buffers view c) :
    Settled decode d (withContents decode d.buffers d.bufferViews) := by
  refine ⟨fun view hview hc => ?own, fun k hk => ?others⟩
  case own =>
    obtain ⟨c, hc⟩ := Option.isSome_iff_exists.1 hc
    have hview' := hready view hview c hc
    obtain ⟨b, hb, hfillable⟩ := hview'.target
    obtain ⟨p, hp, -⟩ := hview'.exists_piece hc (hd.offset view hview (Option.isSome_of_eq_some hc))
    have hpieces : piecesOf decode d.buffers d.bufferViews view.buffer ≠ [] :=
      List.ne_nil_of_mem (List.mem_filterMap.2 ⟨view, hview, by rw [if_pos rfl, hp]⟩)
    refine ⟨b, dataBefore b, _, hb, previous_of_dataOrZeros (dataOrZeros_of_fillable hfillable), ?_,
      assembled_spliceAll hd.offset hready hd.disjoint _⟩
    rw [elementAt?_withContents, hb, Option.map_some, withPieces_of_ne_nil hpieces]
  case others =>
    rw [elementAt?_withContents, piecesOf_eq_nil hk]
    exact Option.map_id'

/-- Independent views that a pure decoder decodes all of. Each buffer that such views belong to is as long
as it was, or as it declares if it had no data, or as far as its views reach. It holds the content of each
of them in its place and what was there before, or zeros, in all others. No other buffer is changed. So
the views come to the same in any other order. -/
theorem decodeAll_independent (hd : Independent d.bufferViews)
    (h : (decodeAll (some decode.lift) d).run s = (result, s')) (hproblems : result.problems = [])
    (hfault : result.fault = none) :
    Settled decode d result.buffers ∧ ∀ views, d.bufferViews.Perm views →
      (decodeAll (some decode.lift) { d with bufferViews := views }).run s = (result, s') := by
  have hready := ready_of_decodeAll hd h hproblems hfault
  cases (run_decodeAll_of_ready hd hready s).symm.trans h
  refine ⟨settled_withContents hd hready, fun views hperm => ?_⟩
  have hready' : ∀ view ∈ views, ∀ c, compression? view = some c → Ready decode d.buffers view c :=
    fun view hview => hready view (hperm.mem_iff.2 hview)
  rw [run_decodeAll_of_ready (d := { d with bufferViews := views }) (hd.perm hperm) hready',
    withContents_perm hd hready hperm, hperm.countP_eq]

end

/-- The first view lies behind the second and leaves a gap, which is filled with zeros. The buffer comes to
the same with the second view first. -/
theorem decodeAll_independent_reversed :
    let compressed (source : Int) : Attachments :=
      ({} : Attachments).add Schema.meshoptCompression.extensionName
        (.make Schema.meshoptCompression
          [("buffer", .ofInt 0), ("byte_offset", .ofInt source), ("byte_length", .ofInt 2),
            ("byte_stride", .ofInt 2), ("count", .ofInt 1), ("mode", .ofString "ATTRIBUTES"),
            ("filter", .ofString "NONE")] {})
    let d : Document :=
      { buffers := [{ byteLength := 4, data := some [1, 2, 3, 4] }, { byteLength := 1 }]
        bufferViews :=
          [{ buffer := 1, byteOffset := 3, byteLength := 2, attachments := compressed 0 },
            { buffer := 1, byteLength := 2, attachments := compressed 2 }] }
    let decode : PureDecoder := fun bs _ _ _ _ => .ok bs
    let result : Result :=
      { buffers :=
          [{ byteLength := 4, data := some [1, 2, 3, 4] },
            { byteLength := 1, data := some [3, 4, 0, 1, 2] }]
        decoded := 2 }
    Independent d.bufferViews ∧ (decodeAll (some decode.lift) d).run () = (result, ()) ∧
      Settled decode d result.buffers ∧
      (decodeAll (some decode.lift) { d with bufferViews := d.bufferViews.reverse }).run () =
        (result, ()) := by
  intro compressed d decode result
  have hcompression (source : Int) (offset : Int) :
      compression? { buffer := 1, byteOffset := offset, byteLength := 2, attachments := compressed source } =
        some ⟨0, source, 2, 2, 1, .attributes, .none⟩ := rfl
  have hindependent : Independent d.bufferViews := by
    refine ⟨by simp [d], ?disjoint, ?unmixed⟩
    case disjoint =>
      refine List.pairwise_pair.2 fun c e hc he _ => ?_
      obtain rfl := Option.some.inj ((hcompression 0 3).symm.trans hc)
      obtain rfl := Option.some.inj ((hcompression 2 0).symm.trans he)
      exact Set.disjoint_left.2 fun n hn hn' => by
        simp only [Compression.places, Set.mem_Ico] at hn hn'
        omega
    case unmixed =>
      simp [d, Unmixed, hcompression]
  have hrun : (decodeAll (some decode.lift) d).run () = (result, ()) := rfl
  obtain ⟨hsettled, horder⟩ := decodeAll_independent hindependent hrun rfl rfl
  exact ⟨hindependent, hrun, hsettled, horder _ (List.reverse_perm _).symm⟩

end Gltf.Meshopt
