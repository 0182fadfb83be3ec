import Gltf.Proofs.Resource.Isolation
import Gltf.Proofs.Resource.Outcome
import Mathlib

/-!
When the data URI of a resource is gone from a document that was read. The URI of a buffer goes
exactly if it was decoded, and then the content of the buffer comes from it. The URI of an image goes
once the image is decoded, also if the payload lay in a buffer view and the URI was not looked at.
-/

namespace Gltf

/-! ### Contents -/

/-- Bytes, and what they have become by contents that were put into them. -/
def Meshopt.Overwritten : Bytes → Bytes → Prop :=
  Relation.ReflTransGen fun data data' => ∃ offset content, data' = spliceAt data offset content

/-- A buffer before and after contents are put into its data. -/
structure Buffer.Overwritten (b b' : Buffer) : Prop where
  rest : b' = { b with data := b'.data }
  data : ∀ data, b.data = some data →
    ∃ data', b'.data = some data' ∧ Meshopt.Overwritten data data'

namespace Buffer.Overwritten

theorem refl (b : Buffer) : b.Overwritten b := ⟨rfl, fun data hdata => ⟨data, hdata, .refl⟩⟩

theorem trans {b b' b'' : Buffer} (h : b.Overwritten b') (h' : b'.Overwritten b'') :
    b.Overwritten b'' := by
  refine ⟨by rw [h'.rest, h.rest], fun data hdata => ?_⟩
  obtain ⟨data', hdata', hover⟩ := h.data data hdata
  obtain ⟨data'', hdata'', hover'⟩ := h'.data data' hdata'
  exact ⟨data'', hdata'', hover.trans hover'⟩

theorem of_put {b : Buffer} {data content : Bytes} {offset : Int}
    (h : Meshopt.dataOrZeros b = .ok data) :
    b.Overwritten { b with data := some (Meshopt.spliceAt data offset content) } := by
  refine ⟨rfl, fun data' hdata' => ⟨_, rfl, ?_⟩⟩
  obtain rfl : data' = data := by simpa [Meshopt.dataOrZeros, hdata'] using h
  exact .single ⟨offset, content, rfl⟩

end Buffer.Overwritten

/-! ### Data URIs -/

theorem DataUri.isDataUri_of_decode {uri : String} {decoded : DataUri}
    (h : DataUri.decode uri = .ok decoded) : DataUri.isDataUri uri = true := by
  by_contra hother
  rw [DataUri.decode, if_neg hother] at h
  cases h

section
variable {ro : ReadOptions} {uri : String}

theorem uriAfterDecoding_of_other (h : DataUri.isDataUri uri = false) :
    uriAfterDecoding ro (some uri) = some uri := by
  simp [uriAfterDecoding, h]

theorem uriAfterDecoding_of_clear (hclear : ro.clearDataUris = true)
    (h : DataUri.isDataUri uri = true) : uriAfterDecoding ro (some uri) = none := by
  simp [uriAfterDecoding, hclear, h]

theorem uriAfterDecoding_of_not_clear (uri : Option String) (h : ro.clearDataUris = false) :
    uriAfterDecoding ro uri = uri := by
  simp [uriAfterDecoding, h]

end

/-- What a data URI leads to, if data URIs are decoded. -/
def DataUri.loaded (ro : ReadOptions) (uri : String) : Loaded :=
  if ro.decodeDataUris then
    match DataUri.decode uri with
    | .ok decoded => .data decoded.data (some decoded.mimeType)
    | .error problem => .failed (.dataUri problem)
  else .unresolved

section
variable {m : Type → Type} [Monad m] {loader : Option (Loader m)} {ro : ReadOptions} {uri : String}

theorem loadUri_of_isDataUri (h : DataUri.isDataUri uri = true) :
    loadUri loader ro uri = pure (DataUri.loaded ro uri) := by
  simp only [loadUri, h, if_true, DataUri.loaded]
  cases ro.decodeDataUris with
  | false => rfl
  | true => cases DataUri.decode uri <;> rfl

theorem DataUri.loaded_eq_data_iff {bs : Bytes} {mimeType : Option String} :
    DataUri.loaded ro uri = .data bs mimeType ↔
      ro.decodeDataUris = true ∧ ∃ decoded, DataUri.decode uri = .ok decoded ∧
        decoded.data = bs ∧ some decoded.mimeType = mimeType := by
  rw [DataUri.loaded]
  cases ro.decodeDataUris with
  | false => simp
  | true => cases DataUri.decode uri <;> simp

end

/-! ### Buffers -/

/-- The URI of a buffer is a data URI that is to be decoded, and its bytes suffice. -/
inductive Buffer.Decodes (ro : ReadOptions) (b : Buffer) : Bytes → Prop
  | mk {uri : String} {decoded : DataUri} (asked : ro.decodeDataUris = true)
      (source : b.uri = some uri) (decodes : DataUri.decode uri = .ok decoded)
      (long : b.byteLength ≤ decoded.data.length) : Decodes ro b decoded.data

/-- What becomes of the URI of a buffer. -/
inductive Buffer.UriAfter (ro : ReadOptions) (b b' : Buffer) : Prop
  | kept (same : b'.uri = b.uri) (reason : ro.clearDataUris = false ∨ ∀ bs, ¬b.Decodes ro bs)
  | dropped {bs data : Bytes} (clear : ro.clearDataUris = true) (decodes : b.Decodes ro bs)
      (gone : b'.uri = none) (content : b'.data = some data)
      (overwritten : Meshopt.Overwritten bs data)

namespace Buffer

variable {ro : ReadOptions} {b b' b'' : Buffer}

theorem UriAfter.overwritten (h : b.UriAfter ro b') (h' : b'.Overwritten b'') :
    b.UriAfter ro b'' := by
  have huri : b''.uri = b'.uri := by rw [h'.rest]
  cases h with
  | kept same reason => exact .kept (huri.trans same) reason
  | dropped clear decodes gone content overwritten =>
      obtain ⟨data', hdata', hover⟩ := h'.data _ content
      exact .dropped clear decodes (huri.trans gone) hdata' (overwritten.trans hover)

/-- Without a URI there is nothing to drop. -/
theorem UriAfter.of_none (h : b.uri = none) (h' : b'.uri = none) : b.UriAfter ro b' := by
  refine .kept (h'.trans h.symm) (.inr ?_)
  rintro bs ⟨-, source, -, -⟩
  rw [h] at source
  cases source

variable {uri : String}

/-- The bytes of a data URI are what it leads to. -/
theorem Decodes.loaded {bs : Bytes} (huri : b.uri = some uri) (h : b.Decodes ro bs) :
    DataUri.isDataUri uri = true ∧ b.byteLength ≤ bs.length ∧
      ∃ mimeType, DataUri.loaded ro uri = .data bs mimeType := by
  obtain ⟨asked, source, decodes, long⟩ := h
  rw [huri, Option.some.injEq] at source
  subst source
  exact ⟨DataUri.isDataUri_of_decode decodes, long, _,
    DataUri.loaded_eq_data_iff.2 ⟨asked, _, decodes, rfl, rfl⟩⟩

theorem uriAfter_settle_data (huri : b.uri = some uri) (hdata : DataUri.isDataUri uri = true) :
    b.UriAfter ro (b.settle ro (DataUri.loaded ro uri)).1 := by
  cases hloaded : DataUri.loaded ro uri with
  | unresolved =>
      refine .kept rfl (.inr fun bs hdecodes => ?_)
      obtain ⟨-, -, mimeType, hother⟩ := hdecodes.loaded huri
      cases hloaded.symm.trans hother
  | failed problem =>
      refine .kept rfl (.inr fun bs hdecodes => ?_)
      obtain ⟨-, -, mimeType, hother⟩ := hdecodes.loaded huri
      cases hloaded.symm.trans hother
  | data bs mimeType =>
      rw [settle]
      split_ifs with hshort
      · refine .kept rfl (.inr fun bs' hdecodes => ?_)
        obtain ⟨-, hlong, mimeType', hother⟩ := hdecodes.loaded huri
        cases hloaded.symm.trans hother
        exact absurd hshort (not_lt.2 hlong)
      · obtain ⟨asked, decoded, decodes, rfl, -⟩ := DataUri.loaded_eq_data_iff.1 hloaded
        cases hclear : ro.clearDataUris with
        | false => exact .kept (uriAfterDecoding_of_not_clear b.uri hclear) (.inl hclear)
        | true =>
            refine .dropped hclear (.mk asked huri decodes (not_lt.1 hshort)) ?_ rfl .refl
            show uriAfterDecoding ro b.uri = none
            rw [huri, uriAfterDecoding_of_clear hclear hdata]

theorem uriAfter_settle_other (huri : b.uri = some uri) (hother : DataUri.isDataUri uri = false)
    (loaded : Loaded) : b.UriAfter ro (b.settle ro loaded).1 := by
  refine .kept ?_ (.inr fun bs hdecodes => ?_)
  · cases loaded with
    | data bs mimeType =>
        rw [settle]
        split_ifs
        · rfl
        · show uriAfterDecoding ro b.uri = b.uri
          rw [huri, uriAfterDecoding_of_other hother]
    | _ => rfl
  · obtain ⟨hdata, -⟩ := hdecodes.loaded huri
    rw [hother] at hdata
    cases hdata

theorem uriAfter_resolveBuffer {σ : Type} (loader : Option (Loader (StateM σ)))
    (hfresh : b.data = none) (s : σ) :
    b.UriAfter ro ((resolveBuffer loader ro b).run s).1.1 := by
  cases huri : b.uri with
  | none =>
      rw [resolveBuffer_of_no_uri huri]
      exact .of_none huri huri
  | some uri =>
      rw [resolveBuffer_of_uri hfresh huri]
      cases hdata : DataUri.isDataUri uri with
      | false => exact uriAfter_settle_other huri hdata _
      | true =>
          rw [loadUri_of_isDataUri hdata]
          exact uriAfter_settle_data huri hdata

end Buffer

/-! ### Images -/

/-- Where the pixels of an image come from that has lost its data URI: the bytes of that very URI,
or a buffer view, in which case the URI was not looked at. -/
inductive ImageSource.UriAfter {σ : Type} (transcoder : Option (Image.Transcoder (StateM σ)))
    (ro : ReadOptions) (d : Document) (i i' : ImageSource) : Prop
  | kept (same : i'.uri = i.uri)
      (reason : ro.clearDataUris = false ∨ i'.image = none ∨
        ∀ uri ∈ i.uri, DataUri.isDataUri uri = false)
  | dropped {uri : String} {decoded : DataUri} {image : ImageData} {s s' : σ}
      (clear : ro.clearDataUris = true) (asked : ro.decodeDataUris = true)
      (noView : i.bufferView = none) (source : i.uri = some uri)
      (decodes : DataUri.decode uri = .ok decoded) (gone : i'.uri = none)
      (pixels : i'.image = some image)
      (made : (Image.decode ro.targets transcoder
        (payloadMimeType i.mimeType (some decoded.mimeType)) decoded.data).run s = (.ok image, s'))
  | unseen {uri : String} {view : Int} {bs : Bytes} {image : ImageData} {s s' : σ}
      (clear : ro.clearDataUris = true) (hasView : i.bufferView = some view)
      (source : i.uri = some uri) (isData : DataUri.isDataUri uri = true) (gone : i'.uri = none)
      (found : d.viewBytes view = .ok bs) (pixels : i'.image = some image)
      (made : (Image.decode ro.targets transcoder i.mimeType bs).run s = (.ok image, s'))

namespace ImageSource

variable {σ : Type} {loader : Option (Loader (StateM σ))}
  {transcoder : Option (Image.Transcoder (StateM σ))} {ro : ReadOptions} {d d' : Document}
  {i i' : ImageSource}

theorem UriAfter.congr (h : i.UriAfter transcoder ro d i')
    (hviews : ∀ view, d'.viewBytes view = d.viewBytes view) : i.UriAfter transcoder ro d' i' := by
  cases h with
  | kept same reason => exact .kept same reason
  | dropped clear asked noView source decodes gone pixels made =>
      exact .dropped clear asked noView source decodes gone pixels made
  | unseen clear hasView source isData gone found pixels made =>
      exact .unseen clear hasView source isData gone ((hviews _).trans found) pixels made

/-- An image is left as it is, or its payload is decoded. -/
theorem decodeImage_cases (s : σ) :
    ((decodeImage loader transcoder ro d i).run s).1.1 = i ∨
      ∃ bs mimeType image s₁ s₂,
        (payload loader ro d i).run s = (.data bs mimeType, s₁) ∧
        (Image.decode ro.targets transcoder mimeType bs).run s₁ = (.ok image, s₂) ∧
        ((decodeImage loader transcoder ro d i).run s).1.1 =
          { i with uri := uriAfterDecoding ro i.uri, image := some image } := by
  cases hrefused : Image.isRefused (i.mimeType.getD "") with
  | true =>
      rw [decodeImage_of_refused hrefused]
      exact .inl rfl
  | false =>
      rw [decodeImage_of_admitted hrefused, run_bind]
      cases hfound : (payload loader ro d i).run s with
      | mk found s₁ =>
          cases found with
          | absent => exact .inl rfl
          | failed problem => exact .inl rfl
          | data bs mimeType =>
              show (i.settle ro ((Image.decode ro.targets transcoder mimeType bs).run s₁).1).1 = i ∨ _
              cases hmade : (Image.decode ro.targets transcoder mimeType bs).run s₁ with
              | mk made s₂ =>
                  cases made with
                  | error problem => exact .inl rfl
                  | ok image =>
                      refine .inr ⟨bs, mimeType, image, s₁, s₂, rfl, hmade, ?_⟩
                      show (i.settle ro ((Image.decode ro.targets transcoder mimeType bs).run s₁).1).1 = _
                      rw [hmade, settle]

theorem viewBytes_of_payload {view : Int} {bs : Bytes} {mimeType : Option String} {s s₁ : σ}
    (hview : i.bufferView = some view)
    (h : (payload loader ro d i).run s = (.data bs mimeType, s₁)) :
    d.viewBytes view = .ok bs ∧ mimeType = i.mimeType := by
  rw [payload_of_view hview] at h
  cases hbytes : d.viewBytes view with
  | error problem =>
      rw [hbytes] at h
      cases h
  | ok bs' =>
      rw [hbytes] at h
      cases h
      exact ⟨rfl, rfl⟩

theorem decodes_of_payload {uri : String} {bs : Bytes} {mimeType : Option String} {s s₁ : σ}
    (hview : i.bufferView = none) (huri : i.uri = some uri) (hdata : DataUri.isDataUri uri = true)
    (h : (payload loader ro d i).run s = (.data bs mimeType, s₁)) :
    ro.decodeDataUris = true ∧ ∃ decoded, DataUri.decode uri = .ok decoded ∧ decoded.data = bs ∧
      mimeType = payloadMimeType i.mimeType (some decoded.mimeType) := by
  rw [payload_of_uri hview huri, loadUri_of_isDataUri hdata] at h
  cases hloaded : DataUri.loaded ro uri with
  | data bs' mimeType' =>
      obtain ⟨asked, decoded, decodes, rfl, rfl⟩ := DataUri.loaded_eq_data_iff.1 hloaded
      rw [hloaded] at h
      cases h
      exact ⟨asked, decoded, decodes, rfl, rfl⟩
  | _ =>
      rw [hloaded] at h
      cases h

theorem uriAfter_decodeImage (hfresh : i.image = none) (s : σ) :
    i.UriAfter transcoder ro d ((decodeImage loader transcoder ro d i).run s).1.1 := by
  rcases decodeImage_cases s with hsame | ⟨bs, mimeType, image, s₁, s₂, hfound, hmade, hresult⟩
  · rw [hsame]
    exact .kept rfl (.inr (.inl hfresh))
  · rw [hresult]
    cases hclear : ro.clearDataUris with
    | false => exact .kept (uriAfterDecoding_of_not_clear i.uri hclear) (.inl hclear)
    | true =>
        cases huri : i.uri with
        | none => exact .kept (by simp [uriAfterDecoding, huri]) (.inr (.inr (by simp [huri])))
        | some uri =>
            cases hdata : DataUri.isDataUri uri with
            | false =>
                refine .kept ?_ (.inr (.inr (by simp [huri, hdata])))
                exact (uriAfterDecoding_of_other hdata).trans huri.symm
            | true =>
                have hgone := uriAfterDecoding_of_clear hclear hdata
                cases hview : i.bufferView with
                | some view =>
                    obtain ⟨hbytes, rfl⟩ := viewBytes_of_payload hview hfound
                    exact .unseen hclear hview huri hdata hgone hbytes rfl hmade
                | none =>
                    obtain ⟨hasked, decoded, hdecodes, rfl, rfl⟩ :=
                      decodes_of_payload hview huri hdata hfound
                    exact .dropped hclear hasked hview huri hdecodes hgone rfl hmade

end ImageSource

/-! ### Reads -/

section
variable {σ : Type} {c : Collaborators (StateM σ)} {ro : ReadOptions} {d d' : Document} {s s' : σ}
  {r : Draft} {chunk : Option Bytes} {i : ℕ} {b : Buffer}

/-- A binary chunk goes to a buffer without a URI. -/
theorem bound_bindBinary (chunk : Bytes) (buffers : List Buffer) :
    List.Forall₂ (fun b b' => b' = b ∨ b.uri = none ∧ b'.uri = none) buffers
      (bindBinary chunk buffers).1 := by
  have hsame (bs : List Buffer) :
      List.Forall₂ (fun b b' => b' = b ∨ b.uri = none ∧ b'.uri = none) bs bs :=
    List.forall₂_same.2 fun b _ => .inl rfl
  cases buffers with
  | nil => exact .nil
  | cons b bs =>
      rw [bindBinary]
      split_ifs with huri
      · exact hsame _
      · exact hsame _
      · exact hsame _
      · have hnone : b.uri = none := by simpa using huri
        exact .cons (.inr ⟨hnone, hnone⟩) (hsame bs)

theorem Draft.bound_bind (chunk : Option Bytes) (hb : d.buffers[i]? = some b) :
    ∃ b', ((fresh d).bind chunk).document.buffers[i]? = some b' ∧
      (b' = b ∨ b.uri = none ∧ b'.uri = none) := by
  cases chunk with
  | none => exact ⟨b, hb, .inl rfl⟩
  | some chunk => exact exists_of_forall₂ (bound_bindBinary chunk d.buffers) hb

theorem Buffer.uriAfter_resolveBound {loader : Option (Loader (StateM σ))} {b' : Buffer}
    (hfresh : b.data = none) (hbound : b' = b ∨ b.uri = none ∧ b'.uri = none) (s : σ) :
    b.UriAfter ro ((resolveBuffer loader ro b').run s).1.1 := by
  rcases hbound with rfl | ⟨huri, huri'⟩
  · exact uriAfter_resolveBuffer loader hfresh s
  · rw [resolveBuffer_of_no_uri huri']
    exact .of_none huri huri'

namespace Stage

theorem resolved_resolving {loader : Option (Loader (StateM σ))}
    (h : (resolving loader ro d).run s = (.ok r, s')) (hb : d.buffers[i]? = some b) :
    ∃ s₁, r.document.buffers[i]? = some ((resolveBuffer loader ro b).run s₁).1.1 := by
  cases h
  have hall : List.Forall₂ (fun b b' => ∃ s₁, b' = ((resolveBuffer loader ro b).run s₁).1.1)
      d.buffers ((resolveBuffers loader ro 0 d.buffers).run s).1.1 := by
    rw [resolveBuffers_eq_visitAll]
    exact forall₂_visitAll (fun b s => ⟨s, rfl⟩) 0 d.buffers s
  obtain ⟨b', hb', s₁, rfl⟩ := exists_of_forall₂ hall hb
  exact ⟨s₁, hb'⟩

theorem overwritten_decodingViews {decoder : Option (Meshopt.Decoder (StateM σ))} {asked : Bool}
    (h : ((if asked then decodingViews decoder else idle) d).run s = (.ok r, s')) :
    List.Forall₂ Buffer.Overwritten d.buffers r.document.buffers := by
  rcases run_or_idle h with h | rfl
  · rw [eq_of_decodingViews h]
    exact Meshopt.forall₂_decodeViews Buffer.Overwritten.refl (fun _ _ _ _ => .of_put)
      (fun _ _ _ => .trans) decoder 0 { buffers := d.buffers } d.bufferViews s
  · exact List.forall₂_same.2 fun b _ => .refl b

theorem uriAfter_decodingImages {loader : Option (Loader (StateM σ))}
    {transcoder : Option (Image.Transcoder (StateM σ))} {asked : Bool}
    (h : ((if asked then decodingImages loader transcoder ro else idle) d).run s = (.ok r, s')) :
    List.Forall₂ (fun i i' => i.image = none → i.UriAfter transcoder ro r.document i') d.images
      r.document.images := by
  rcases run_or_idle h with h | rfl
  · cases h
    have hall : List.Forall₂ (fun i i' => i.image = none → i.UriAfter transcoder ro d i')
        d.images ((decodeImages loader transcoder ro d 0 d.images).run s).1.1 := by
      rw [decodeImages_eq_visitAll]
      exact forall₂_visitAll (fun _ s hfresh => ImageSource.uriAfter_decodeImage hfresh s) 0
        d.images s
    refine List.Forall₂.imp ?_ hall
    intro i i' hafter hfresh
    exact (hafter hfresh).congr fun view => rfl
  · exact List.forall₂_same.2 fun i _ hfresh => .kept rfl (.inr (.inl hfresh))

end Stage

theorem Passes.uriAfter_buffers {found : List (List Diagnostic)}
    (h : Passes (stages c ro chunk) d s found d' s') (hb : d.buffers[i]? = some b)
    (hfresh : b.data = none) : ∃ b', d'.buffers[i]? = some b' ∧ b.UriAfter ro b' := by
  obtain _ | ⟨⟨⟩, _ | ⟨hresolving, _ | ⟨hviews, _ | ⟨hprimitives, _ | ⟨himages, ⟨⟩⟩⟩⟩⟩⟩ := h
  obtain ⟨b₀, hb₀, hbound⟩ := Draft.bound_bind chunk hb
  obtain ⟨s₁, hb₁⟩ := Stage.resolved_resolving hresolving hb₀
  obtain ⟨b₂, hb₂, hover⟩ := exists_of_forall₂ (Stage.overwritten_decodingViews hviews) hb₁
  obtain ⟨more, hmore, -⟩ := (Stage.appends_decodingPrimitives hprimitives).buffers
  have hshown := (Stage.pictured_decodingImages himages).rest
  refine ⟨b₂, ?_, (Buffer.uriAfter_resolveBound hfresh hbound s₁).overwritten hover⟩
  rw [hshown]
  show _[i]? = some b₂
  rw [hmore, List.getElem?_append_left (List.getElem?_eq_some_iff.1 hb₂).1]
  exact hb₂

theorem Passes.uriAfter_images {found : List (List Diagnostic)} {image : ImageSource}
    (h : Passes (stages c ro chunk) d s found d' s') (hi : d.images[i]? = some image)
    (hfresh : image.image = none) :
    ∃ image', d'.images[i]? = some image' ∧ image.UriAfter c.transcoder ro d' image' := by
  obtain _ | ⟨hbinding, _ | ⟨hresolving, _ | ⟨hviews, _ | ⟨hprimitives, _ | ⟨himages, ⟨⟩⟩⟩⟩⟩⟩ := h
  rename_i s₀ r₀ s₁ r₁ s₂ r₂ s₃ r₃ r₄
  have hsame : r₃.document.images = d.images := by
    rw [(Stage.appends_decodingPrimitives hprimitives).rest,
      (Stage.refilled_decodingViews hviews).rest, (Stage.refilled_resolving hresolving).rest,
      (Stage.refilled_binding hbinding).rest]
  obtain ⟨image', hi', hafter⟩ :=
    exists_of_forall₂ (Stage.uriAfter_decodingImages himages) (hsame ▸ hi)
  exact ⟨image', hi', hafter hfresh⟩

end

/-- A URI that the root object has is kept or dropped. It is dropped only if URIs are to be cleared
and it is a data URI. That of a buffer was decoded then, and so was that of an image without a view;
an image with a view loses its URI though its pixels come from the view. -/
theorem read_drops_uris {σ : Type} {c : Collaborators (StateM σ)} {o : Options} {ro : ReadOptions}
    {bs : Bytes} {s s' : σ} {document : Document} {diagnostics : List Diagnostic}
    (h : (read c o ro bs).run s = (.ok (.document document diagnostics), s')) :
    ∃ file members, contents bs = .ok file ∧ Json.parse file.json = .ok (.object members) ∧
      (∀ (i : ℕ) (b : Buffer), (Draft.ofMembers o members).document.buffers[i]? = some b →
        ∃ b', document.buffers[i]? = some b' ∧ b.UriAfter ro b') ∧
      ∀ (i : ℕ) (image : ImageSource), (Draft.ofMembers o members).document.images[i]? = some image →
        ∃ image', document.images[i]? = some image' ∧
          image.UriAfter c.transcoder ro document image' := by
  obtain ⟨file, members, opened, parsed, record, findings, found, root, hpasses, -⟩ :=
    passes_of_document h
  have hinstance := Reading.isInstance_of_object root
  refine ⟨file, members, opened, parsed, fun i b hb => ?_, fun i image hi => ?_⟩
  · rw [ofMembers_eq root] at hb
    exact hpasses.uriAfter_buffers hb
      (Reading.data_of_mem_buffers hinstance (List.mem_of_getElem? hb))
  · rw [ofMembers_eq root] at hi
    exact hpasses.uriAfter_images hi
      (Reading.image_of_mem_images hinstance (List.mem_of_getElem? hi))

set_option maxRecDepth 8192 in
/-- A buffer whose URI is decoded. -/
theorem read_drops_uris_decoded :
    let bs : Bytes :=
      [123, 34, 98, 117, 102, 102, 101, 114, 115, 34, 58, 91, 123, 34, 117, 114, 105, 34, 58, 34,
       100, 97, 116, 97, 58, 44, 97, 98, 34, 44, 34, 98, 121, 116, 101, 76, 101, 110, 103, 116, 104,
       34, 58, 50, 125, 93, 125]
    let c : Collaborators (StateM Unit) := {}
    let b : Buffer := { uri := some "data:,ab", byteLength := 2 }
    ∃ document diagnostics,
      (read c {} {} bs).run () = (.ok (.document document diagnostics), ()) ∧
        document.buffers = [{ b with uri := none, data := some [97, 98] }] ∧
        ∃ b', document.buffers[0]? = some b' ∧ b.UriAfter {} b' := by
  intro bs c b
  let members : List (String × Json) :=
    [("buffers", .array
      [.object [("uri", .string "data:,ab"), ("byteLength", .number (.int 2))]])]
  have hparsed : Json.parse bs = .ok (.object members) := rfl
  obtain ⟨document, diagnostics, hread, hbuffers⟩ : ∃ document diagnostics,
      (read c {} {} bs).run () = (.ok (.document document diagnostics), ()) ∧
        document.buffers = [{ b with uri := none, data := some [97, 98] }] := by
    rw [read_json hparsed, readContents, hparsed]
    exact ⟨_, _, rfl, rfl⟩
  obtain ⟨file, members', hopened, hmembers, hkept, -⟩ := read_drops_uris hread
  obtain rfl : ⟨bs, none, []⟩ = file := Except.ok.inj hopened
  cases hparsed.symm.trans hmembers
  exact ⟨document, diagnostics, hread, hbuffers, hkept 0 b rfl⟩

set_option maxRecDepth 8192 in
/-- An image in a view, which loses its URI though data URIs are not to be decoded. -/
theorem read_drops_unseen_uri :
    let bs : Bytes :=
      [123, 34, 98, 117, 102, 102, 101, 114, 115, 34, 58, 91, 123, 34, 117, 114, 105, 34, 58, 34,
       98, 34, 44, 34, 98, 121, 116, 101, 76, 101, 110, 103, 116, 104, 34, 58, 49, 48, 53, 125, 93,
       44, 34, 98, 117, 102, 102, 101, 114, 86, 105, 101, 119, 115, 34, 58, 91, 123, 34, 98, 117,
       102, 102, 101, 114, 34, 58, 48, 44, 34, 98, 121, 116, 101, 76, 101, 110, 103, 116, 104, 34,
       58, 49, 48, 53, 125, 93, 44, 34, 105, 109, 97, 103, 101, 115, 34, 58, 91, 123, 34, 117, 114,
       105, 34, 58, 34, 100, 97, 116, 97, 58, 44, 120, 34, 44, 34, 98, 117, 102, 102, 101, 114, 86,
       105, 101, 119, 34, 58, 48, 125, 93, 125]
    let members : List (String × Json) :=
      [("buffers", .array [.object [("uri", .string "b"), ("byteLength", .number (.int 105))]]),
        ("bufferViews", .array
          [.object [("buffer", .number (.int 0)), ("byteLength", .number (.int 105))]]),
        ("images", .array
          [.object [("uri", .string "data:,x"), ("bufferView", .number (.int 0))]])]
    let header : Ktx2.Header :=
      { vkFormat := 9, typeSize := 1, width := 1, height := 1, depth := 0, layerCount := 0
        faceCount := 1, levelCount := 1, supercompression := 0
        dfd := ⟨0, 0⟩, kvd := ⟨0, 0⟩, sgd := ⟨0, 0⟩, levels := [⟨104, 1, 1⟩] }
    let c : Collaborators (StateM Unit) :=
      { loader := some fun _ => pure (.ok (header.encode ++ [7])) }
    let result := ((read c {} { decodeDataUris := false } bs).run ()).1
    Json.parse bs = .ok (.object members) ∧
      (Draft.ofMembers {} members).document.images.map ImageSource.uri = [some "data:,x"] ∧
      (result.toOption.bind ReadResult.document?).map (fun d => d.images.map ImageSource.uri) =
        some [none] ∧
      (result.toOption.bind ReadResult.document?).map
        (fun d => d.images.map fun i => i.image.map ImageData.pixels) = some [some [7]] := by
  intro bs members header c result
  refine ⟨rfl, rfl, ?_, ?_⟩
  · decide +revert +kernel
  · decide +revert +kernel

end Gltf
