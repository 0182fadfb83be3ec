import Gltf.Proofs.Image.Containers
import Gltf.Proofs.Resource.Isolation
import Gltf.Proofs.Resource.Outcome
import Mathlib

/-!
What a loader is asked for during a read, in which order. The collaborators are run beside a log in
which the loader writes down every URI before it answers, whatever the answer. A read with the log
goes as it goes without, and the log can be told from the root object alone.
-/

namespace Gltf

/-! ### A log -/

section
variable {σ α β : Type}

/-- A computation beside a log of which it knows nothing. -/
def beside (x : StateM σ α) : StateM (σ × List String) α := fun (s, log) =>
  ((x.run s).1, (x.run s).2, log)

/-- A loader that writes down what it is asked for. -/
def recordedLoader (load : Loader (StateM σ)) : Loader (StateM (σ × List String)) := fun uri => do
  modify fun (s, log) => (s, log ++ [uri])
  beside (load uri)

/-- The same collaborators, with a log of what the loader is asked for. -/
def Collaborators.recorded (c : Collaborators (StateM σ)) :
    Collaborators (StateM (σ × List String)) where
  loader := c.loader.map recordedLoader
  transcoder := c.transcoder.map fun transcode bs l => beside (transcode bs l)
  draco := c.draco.map fun decode bs attributes => beside (decode bs attributes)
  meshopt := c.meshopt.map fun decode bs count stride mode filter =>
    beside (decode bs count stride mode filter)

/-- A computation and the same one with a log, at whose end it writes down these requests. -/
def Records (requests : List String) (x : StateM σ α) (y : StateM (σ × List String) α) : Prop :=
  ∀ s log, y.run (s, log) = ((x.run s).1, (x.run s).2, log ++ requests)

namespace Records

theorem of_pure (a : α) : Records [] (pure a : StateM σ α) (pure a) := by
  intro s log
  rw [List.append_nil]
  rfl

theorem of_beside (x : StateM σ α) : Records [] x (beside x) := by
  intro s log
  rw [List.append_nil]
  rfl

theorem of_recordedLoader (load : Loader (StateM σ)) (uri : String) :
    Records [uri] (load uri) (recordedLoader load uri) := fun _ _ => rfl

variable {requests requests' : List String} {x : StateM σ α} {y : StateM (σ × List String) α}

/-- What comes first is written down first. -/
theorem bind {f : α → StateM σ β} {g : α → StateM (σ × List String) β} (h : Records requests x y)
    (h' : ∀ a, Records requests' (f a) (g a)) :
    Records (requests ++ requests') (x >>= f) (y >>= g) := by
  intro s log
  rw [run_bind, run_bind, h s log, h' _ _ _, List.append_assoc]

theorem run {s s' : σ} {a : α} (h : Records requests x y) (hx : x.run s = (a, s'))
    (log : List String) : y.run (s, log) = (a, s', log ++ requests) := by
  rw [h s log, hx]

/-- Nothing is asked for in the end. -/
theorem bind_silent {f : α → StateM σ β} {g : α → StateM (σ × List String) β}
    (h : Records requests x y) (h' : ∀ a, Records [] (f a) (g a)) :
    Records requests (x >>= f) (y >>= g) := by
  have := h.bind h'
  rwa [List.append_nil] at this

theorem map (f : α → β) (h : Records requests x y) : Records requests (f <$> x) (f <$> y) := by
  rw [map_eq_pure_bind, map_eq_pure_bind]
  exact h.bind_silent fun a => of_pure (f a)

/-- One element after the other asks for what it needs. -/
theorem of_visitAll {π : Type} {request? : α → Option String}
    {visit : α → StateM σ (α × Option π)} {visit' : α → StateM (σ × List String) (α × Option π)}
    {as : List α} (h : ∀ a ∈ as, Records (request? a).toList (visit a) (visit' a)) (i : ℕ) :
    Records (as.filterMap request?) (visitAll visit i as) (visitAll visit' i as) := by
  induction as generalizing i with
  | nil => exact .of_pure _
  | cons a as ih =>
      rw [List.forall_mem_cons] at h
      have hrequests : (a :: as).filterMap request? =
          (request? a).toList ++ as.filterMap request? := by
        cases ha : request? a <;> simp [ha]
      rw [hrequests]
      refine h.1.bind fun answer => ?_
      exact (ih h.2 (i + 1)).bind_silent fun rest => .of_pure _

end Records

end

/-! ### Requests -/

/-- What has to be fetched for a URI: all but data URIs. -/
def fetched? (uri : Option String) : Option String := uri.filter fun uri => !DataUri.isDataUri uri

def Buffer.request? (b : Buffer) : Option String := fetched? b.uri

instance (mimeType : Option String) : Decidable (Image.Admitted mimeType) :=
  inferInstanceAs (Decidable (∀ name ∈ mimeType, _))

/-- The URI of an image is looked at if its media type rules it out neither, nor a view comes
first. -/
def ImageSource.request? (i : ImageSource) : Option String :=
  if Image.Admitted i.mimeType ∧ i.bufferView = none then fetched? i.uri else none

/-- What is asked for on behalf of a document. -/
def Document.requests (d : Document) (ro : ReadOptions) : List String :=
  d.buffers.filterMap Buffer.request? ++
    if ro.decodeImages then d.images.filterMap ImageSource.request? else []

theorem Image.isRefused_iff_not_admitted {mimeType : Option String} :
    Image.isRefused (mimeType.getD "") = true ↔ ¬Image.Admitted mimeType := by
  constructor
  · intro hrefused hadmitted
    rw [Image.not_isRefused_of_admitted hadmitted] at hrefused
    cases hrefused
  · intro h
    obtain ⟨name, rfl, hname⟩ : ∃ name, mimeType = some name ∧
        ¬(name = "" ∨ Text.lowerString name ∈ Image.supportedNames) := by
      simpa [Image.Admitted] using h
    rw [not_or] at hname
    simp [Image.isRefused, hname]

section
variable {σ : Type} {load : Loader (StateM σ)} {ro : ReadOptions}

theorem records_loadUri (uri : String) :
    Records (fetched? (some uri)).toList (loadUri (some load) ro uri)
      (loadUri (some (recordedLoader load)) ro uri) := by
  cases hdata : DataUri.isDataUri uri with
  | true =>
      simp only [loadUri, fetched?, hdata, if_true, Option.filter]
      cases ro.decodeDataUris with
      | false => exact .of_pure _
      | true => cases DataUri.decode uri <;> exact .of_pure _
  | false =>
      simp only [loadUri, fetched?, hdata, Bool.false_eq_true, if_false, Option.filter, Bool.not_false,
        if_true]
      refine (Records.of_recordedLoader load uri).bind_silent fun answer => ?_
      cases answer <;> exact .of_pure _

/-! ### Buffers -/

/-- A buffer that has its content already has no URI. -/
def Buffer.Unfetched (b : Buffer) : Prop := b.data = none ∨ b.uri = none

theorem records_resolveBuffer {b : Buffer} (h : b.Unfetched) :
    Records b.request?.toList (resolveBuffer (some load) ro b)
      (resolveBuffer (some (recordedLoader load)) ro b) := by
  cases huri : b.uri with
  | none =>
      rw [resolveBuffer_of_no_uri huri, resolveBuffer_of_no_uri huri, Buffer.request?, huri]
      exact .of_pure _
  | some uri =>
      have hdata : b.data = none := h.resolve_right (by simp [huri])
      rw [resolveBuffer_of_uri hdata huri, resolveBuffer_of_uri hdata huri, Buffer.request?, huri]
      exact (records_loadUri uri).map _

theorem records_resolveBuffers (i : ℕ) {buffers : List Buffer} (h : ∀ b ∈ buffers, b.Unfetched) :
    Records (buffers.filterMap Buffer.request?) (resolveBuffers (some load) ro i buffers)
      (resolveBuffers (some (recordedLoader load)) ro i buffers) := by
  rw [resolveBuffers_eq_visitAll, resolveBuffers_eq_visitAll]
  exact Records.of_visitAll (fun b hb => records_resolveBuffer (h b hb)) i

/-- The binary chunk is given to a buffer without a URI, so it changes no request. -/
theorem requests_bindBinary (chunk : Bytes) (buffers : List Buffer) :
    (bindBinary chunk buffers).1.filterMap Buffer.request? =
      buffers.filterMap Buffer.request? := by
  cases buffers with
  | nil => rfl
  | cons b bs =>
      rw [bindBinary]
      split_ifs <;> rfl

theorem unfetched_bindBinary (chunk : Bytes) {buffers : List Buffer}
    (h : ∀ b ∈ buffers, b.Unfetched) : ∀ b ∈ (bindBinary chunk buffers).1, b.Unfetched := by
  cases buffers with
  | nil => exact h
  | cons b bs =>
      rw [List.forall_mem_cons] at h
      rw [bindBinary]
      split_ifs with huri
      · exact List.forall_mem_cons.2 h
      · exact List.forall_mem_cons.2 h
      · exact List.forall_mem_cons.2 h
      · exact List.forall_mem_cons.2 ⟨.inr (by simpa using huri), h.2⟩

/-! ### Images -/

section
variable {c : Collaborators (StateM σ)} {d : Document}

theorem records_payload {i : ImageSource} :
    Records (if i.bufferView = none then (fetched? i.uri).toList else [])
      (payload (some load) ro d i) (payload (some (recordedLoader load)) ro d i) := by
  cases hview : i.bufferView with
  | some view =>
      rw [payload_of_view hview, payload_of_view hview]
      exact .of_pure _
  | none =>
      rw [if_pos rfl]
      cases huri : i.uri with
      | none =>
          rw [payload_of_nothing hview huri, payload_of_nothing hview huri]
          exact .of_pure _
      | some uri =>
          rw [payload_of_uri hview huri, payload_of_uri hview huri]
          exact (records_loadUri uri).map _

theorem records_decodeKtx2 (targets : Ktx2.Targets) (bs : Bytes) :
    Records [] (Image.decodeKtx2 targets c.transcoder bs)
      (Image.decodeKtx2 targets c.recorded.transcoder bs) := by
  simp only [Image.decodeKtx2, Collaborators.recorded]
  cases Ktx2.layout bs targets with
  | error problem => exact .of_pure _
  | ok l =>
      cases c.transcoder with
      | none =>
          refine (Records.of_pure _).bind_silent fun answer => ?_
          cases answer <;> exact .of_pure _
      | some transcode =>
          refine (Records.of_beside _).bind_silent fun answer => ?_
          cases answer <;> exact .of_pure _

theorem records_decode (targets : Ktx2.Targets) (mimeType : Option String) (bs : Bytes) :
    Records [] (Image.decode targets c.transcoder mimeType bs)
      (Image.decode targets c.recorded.transcoder mimeType bs) := by
  simp only [Image.decode]
  split_ifs
  · exact .of_pure _
  · cases Image.sniff? bs with
    | none => exact .of_pure _
    | some format =>
        cases format with
        | ktx2 => exact records_decodeKtx2 targets bs
        | _ => exact .of_pure _

theorem records_decodeImage (i : ImageSource) :
    Records i.request?.toList (decodeImage (some load) c.transcoder ro d i)
      (decodeImage (some (recordedLoader load)) c.recorded.transcoder ro d i) := by
  cases hrefused : Image.isRefused (i.mimeType.getD "") with
  | true =>
      have hnone : i.request? = none := by
        simp [ImageSource.request?, Image.isRefused_iff_not_admitted.1 hrefused]
      rw [decodeImage_of_refused hrefused, decodeImage_of_refused hrefused, hnone]
      exact .of_pure _
  | false =>
      have hadmitted : Image.Admitted i.mimeType := by
        by_contra hnot
        rw [Image.isRefused_iff_not_admitted.2 hnot] at hrefused
        cases hrefused
      have hrequest : i.request?.toList =
          if i.bufferView = none then (fetched? i.uri).toList else [] := by
        rw [ImageSource.request?]
        split_ifs <;> simp_all
      rw [decodeImage_of_admitted hrefused, decodeImage_of_admitted hrefused, hrequest]
      refine records_payload.bind_silent fun found => ?_
      cases found with
      | data bs mimeType => exact (records_decode ro.targets mimeType bs).map _
      | _ => exact .of_pure _

theorem records_decodeImages (index : ℕ) (images : List ImageSource) :
    Records (images.filterMap ImageSource.request?)
      (decodeImages (some load) c.transcoder ro d index images)
      (decodeImages (some (recordedLoader load)) c.recorded.transcoder ro d index images) := by
  rw [decodeImages_eq_visitAll, decodeImages_eq_visitAll]
  exact Records.of_visitAll (fun i _ => records_decodeImage i) index

end

end

/-! ### Meshes -/

section
variable {σ : Type} {c : Collaborators (StateM σ)}

theorem Meshopt.records_decodeView (buffers : List Buffer) (view : BufferView)
    (compression : Compression) :
    Records [] (decodeView c.meshopt buffers view compression)
      (decodeView c.recorded.meshopt buffers view compression) := by
  simp only [decodeView, Collaborators.recorded]
  cases c.meshopt with
  | none => exact .of_pure _
  | some decode =>
      cases source? buffers compression with
      | none => exact .of_pure _
      | some source =>
          cases elementAt? buffers view.buffer with
          | none => exact .of_pure _
          | some target =>
              refine (Records.of_beside _).bind_silent fun answer => ?_
              cases answer <;> exact .of_pure _

theorem Meshopt.records_decodeViews (i : ℕ) (r : Result) (views : List BufferView) :
    Records [] (decodeViews c.meshopt i r views) (decodeViews c.recorded.meshopt i r views) := by
  induction views generalizing i r with
  | nil => exact .of_pure _
  | cons view views ih =>
      rw [decodeViews, decodeViews]
      cases compression? view with
      | none => exact ih (i + 1) r
      | some compression =>
          refine (records_decodeView r.buffers view compression).bind fun answer => ?_
          cases answer with
          | error cause => exact .of_pure _
          | ok outcome => cases outcome <;> exact ih (i + 1) _

theorem Draco.records_decodeMesh (decode : Decoder (StateM σ)) (d : Document)
    (compression : Compression) :
    Records [] (decodeMesh decode d compression)
      (decodeMesh (fun bs attributes => beside (decode bs attributes)) d compression) := by
  simp only [decodeMesh]
  cases d.viewBytes compression.bufferView with
  | error problem => exact .of_pure _
  | ok bs =>
      refine (Records.of_beside _).bind_silent fun answer => ?_
      cases answer <;> exact .of_pure _

theorem Draco.records_decodePrimitive (place : Location) (r : Result) (p : MeshPrimitive) :
    Records [] (decodePrimitive c.draco place r p)
      (decodePrimitive c.recorded.draco place r p) := by
  simp only [decodePrimitive, Collaborators.recorded]
  cases compression? p with
  | none => exact .of_pure _
  | some compression =>
      cases c.draco with
      | none => exact .of_pure _
      | some decode =>
          refine (records_decodeMesh decode r.document compression).bind_silent fun answer => ?_
          cases answer <;> exact .of_pure _

theorem Draco.records_decodePrimitives (r : Result) (primitives : List (Location × MeshPrimitive)) :
    Records [] (decodePrimitives c.draco r primitives)
      (decodePrimitives c.recorded.draco r primitives) := by
  induction primitives generalizing r with
  | nil => exact .of_pure _
  | cons primitive primitives ih =>
      rw [decodePrimitives, decodePrimitives]
      exact (records_decodePrimitive primitive.1 r primitive.2).bind fun r => ih r

end

/-! ### Reads -/

section
variable {σ : Type} {c : Collaborators (StateM σ)} {load : Loader (StateM σ)} {ro : ReadOptions}
  {d : Document}

namespace Stage

theorem records_resolving (h : ∀ b ∈ d.buffers, b.Unfetched) :
    Records (d.buffers.filterMap Buffer.request?) (resolving (some load) ro d)
      (resolving (some (recordedLoader load)) ro d) := by
  refine Records.map _ ((records_resolveBuffers 0 h).bind_silent fun answer => ?_)
  exact .of_pure _

theorem records_decodingViews (asked : Bool) :
    Records [] ((if asked then decodingViews c.meshopt else idle) d)
      ((if asked then decodingViews c.recorded.meshopt else idle) d) := by
  cases asked with
  | false => exact .of_pure _
  | true =>
      refine (Meshopt.records_decodeViews 0 _ d.bufferViews).bind fun r => ?_
      cases r.fault <;> exact .of_pure _

theorem records_decodingPrimitives (asked : Bool) :
    Records [] ((if asked then decodingPrimitives c.draco else idle) d)
      ((if asked then decodingPrimitives c.recorded.draco else idle) d) := by
  cases asked with
  | false => exact .of_pure _
  | true =>
      refine Records.map _ ((Draco.records_decodePrimitives _ _).bind_silent fun r => ?_)
      exact .of_pure _

theorem records_decodingImages (hload : c.loader = some load) (asked : Bool) :
    Records (if asked then d.images.filterMap ImageSource.request? else [])
      ((if asked then decodingImages c.loader c.transcoder ro else idle) d)
      ((if asked then decodingImages c.recorded.loader c.recorded.transcoder ro else idle) d) := by
  cases asked with
  | false => exact .of_pure _
  | true =>
      rw [Collaborators.recorded, hload]
      refine Records.map _ ((records_decodeImages 0 d.images).bind_silent fun answer => ?_)
      exact .of_pure _

end Stage

namespace Draft

/-- The binary chunk leaves images as they are, and every request. -/
theorem requests_bind (chunk : Option Bytes) (d : Document) (ro : ReadOptions) :
    ((fresh d).bind chunk).document.requests ro = d.requests ro := by
  cases chunk with
  | none => rfl
  | some chunk =>
      have hbuffers := requests_bindBinary chunk d.buffers
      show (bindBinary chunk d.buffers).1.filterMap Buffer.request? ++ _ = _
      rw [hbuffers]
      rfl

theorem unfetched_bind (chunk : Option Bytes) (h : ∀ b ∈ d.buffers, b.data = none) :
    ∀ b ∈ ((fresh d).bind chunk).document.buffers, b.Unfetched := by
  cases chunk with
  | none => exact fun b hb => .inl (h b hb)
  | some chunk => exact unfetched_bindBinary chunk fun b hb => .inl (h b hb)

end Draft

/-- The stages pass with a log as they do without, and images are asked for as they were in the
beginning. -/
theorem Passes.recorded {chunk : Option Bytes} {d' : Document} {s s' : σ}
    {found : List (List Diagnostic)} (hload : c.loader = some load)
    (hfresh : ∀ b ∈ d.buffers, b.data = none) (h : Passes (stages c ro chunk) d s found d' s')
    (log : List String) :
    Passes (stages c.recorded ro chunk) d (s, log) found d' (s', log ++ d.requests ro) := by
  obtain _ | ⟨⟨⟩, _ | ⟨hresolving, _ | ⟨hviews, _ | ⟨hprimitives, _ | ⟨himages, ⟨⟩⟩⟩⟩⟩⟩ := h
  rename_i s₁ r₁ s₂ r₂ s₃ r₃ r₄
  have hsame : r₃.document.images = ((Draft.fresh d).bind chunk).document.images := by
    rw [(Stage.appends_decodingPrimitives hprimitives).rest,
      (Stage.refilled_decodingViews hviews).rest, (Stage.refilled_resolving hresolving).rest]
  rw [hload] at hresolving
  have hresolved := (Stage.records_resolving (Draft.unfetched_bind chunk hfresh)).run hresolving log
  have hdecoded (log) := (Stage.records_decodingViews ro.decodeMeshopt).run hviews log
  have happended (log) := (Stage.records_decodingPrimitives ro.decodeDraco).run hprimitives log
  have hpictured (log) := (Stage.records_decodingImages hload ro.decodeImages).run himages log
  have hloader : c.recorded.loader = some (recordedLoader load) := by
    rw [Collaborators.recorded, hload, Option.map_some]
  simp only [List.append_nil] at hdecoded happended
  rw [← Draft.requests_bind chunk, Document.requests, ← hsame, ← List.append_assoc, stages, hloader]
  rw [hloader] at hpictured
  exact .cons rfl (.cons hresolved (.cons (hdecoded _) (.cons (happended _)
    (.cons (hpictured _) (.nil _ _)))))

section
variable {o : Options} {bs : Bytes} {s s' : σ} {document : Document} {diagnostics : List Diagnostic}

/-- A loader is asked for what the root object refers to: first the URIs of the buffers, data URIs
apart, then, if images are decoded, those of the images that are not ruled out and have no view.
Each is asked for once, in its order and whatever the answers are, and the read does not depend on
the log. -/
theorem read_requests (hload : c.loader = some load)
    (h : (read c o ro bs).run s = (.ok (.document document diagnostics), s')) :
    ∃ file members, contents bs = .ok file ∧ Json.parse file.json = .ok (.object members) ∧
      ∀ log, (read c.recorded o ro bs).run (s, log) =
        (.ok (.document document diagnostics),
          (s', log ++ (Draft.ofMembers o members).document.requests ro)) := by
  obtain ⟨file, members, opened, parsed, record, findings, found, root, hpasses, rfl⟩ :=
    passes_of_document h
  refine ⟨file, members, opened, parsed, fun log => ?_⟩
  have hfresh : ∀ b ∈ (Document.ofRecord record).buffers, b.data = none :=
    fun b => Reading.data_of_mem_buffers (Reading.isInstance_of_object root)
  rw [read_of_passes opened parsed root (hpasses.recorded hload hfresh log), ofMembers_eq root]

end

end

set_option maxRecDepth 8192 in
/-- Every request is refused and counted. One image is ruled out by its media type, and one by its
view. -/
theorem read_requests_refused :
    let bs : Bytes :=
      [123, 34, 98, 117, 102, 102, 101, 114, 115, 34, 58, 91, 123, 34, 117, 114, 105, 34, 58, 34, 97,
      34, 125, 44, 123, 34, 117, 114, 105, 34, 58, 34, 68, 65, 84, 65, 58, 44, 120, 34, 125, 44,
      123, 34, 117, 114, 105, 34, 58, 34, 98, 34, 125, 93, 44, 34, 105, 109, 97, 103, 101, 115, 34,
      58, 91, 123, 34, 117, 114, 105, 34, 58, 34, 99, 34, 44, 34, 109, 105, 109, 101, 84, 121, 112,
      101, 34, 58, 34, 73, 77, 65, 71, 69, 47, 80, 78, 71, 34, 125, 44, 123, 34, 117, 114, 105, 34,
      58, 34, 100, 34, 44, 34, 109, 105, 109, 101, 84, 121, 112, 101, 34, 58, 34, 120, 34, 125, 44,
      123, 34, 117, 114, 105, 34, 58, 34, 101, 34, 44, 34, 98, 117, 102, 102, 101, 114, 86, 105,
      101, 119, 34, 58, 48, 125, 44, 123, 34, 117, 114, 105, 34, 58, 34, 97, 34, 125, 93, 125]
    let c : Collaborators (StateM ℕ) :=
      { loader := some fun _ => do
          modify (· + 1)
          pure (.error "refused") }
    ∃ document diagnostics,
      (read c {} {} bs).run 0 = (.ok (.document document diagnostics), 4) ∧
        (read c.recorded {} {} bs).run (0, []) =
          (.ok (.document document diagnostics), (4, ["a", "b", "c", "a"])) := by
  intro bs c
  let members : List (String × Json) :=
    [("buffers", .array
      [.object [("uri", .string "a")], .object [("uri", .string "DATA:,x")],
        .object [("uri", .string "b")]]),
      ("images", .array
        [.object [("uri", .string "c"), ("mimeType", .string "IMAGE/PNG")],
          .object [("uri", .string "d"), ("mimeType", .string "x")],
          .object [("uri", .string "e"), ("bufferView", .number (.int 0))],
          .object [("uri", .string "a")]])]
  have hparsed : Json.parse bs = .ok (.object members) := rfl
  obtain ⟨document, diagnostics, hread⟩ : ∃ document diagnostics,
      (read c {} {} bs).run 0 = (.ok (.document document diagnostics), 4) := by
    rw [read_json hparsed, readContents, hparsed]
    exact ⟨_, _, rfl⟩
  obtain ⟨file, members', hopened, hmembers, hrecorded⟩ := read_requests rfl hread
  obtain rfl : ⟨bs, none, []⟩ = file := Except.ok.inj hopened
  obtain rfl : members = members' := by
    have hsame := hparsed.symm.trans hmembers
    cases hsame
    rfl
  exact ⟨document, diagnostics, hread, hrecorded []⟩

end Gltf
