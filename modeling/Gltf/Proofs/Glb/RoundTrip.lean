import Gltf.Reader
import Gltf.Proofs.Glb.Grammar
import Gltf.Proofs.Json.TrailingBlanks
import Mathlib

/-!
What is written as a container is read back, up to the padding of both parts, and a document in a
container is read as the document on its own is, except that its first buffer holds the binary part.
-/

namespace Gltf

namespace Bytes

/-- Bytes with fewer than four copies of `fill` behind them, as many as make four divide the
length. -/
def Padded (fill : UInt8) (bs padded : Bytes) : Prop :=
  ∃ k < 4, padded = bs ++ List.replicate k fill ∧ 4 ∣ padded.length

theorem padded_padTo4 (fill : UInt8) (bs : Bytes) : Padded fill bs (padTo4 bs fill) := by
  refine ⟨(4 - bs.length % 4) % 4, Nat.mod_lt _ (by omega), rfl, ?_⟩
  rw [padTo4, List.length_append, List.length_replicate]
  omega

theorem toNatLE_ofNatLE_four {n : Nat} (h : n < 0x100000000) : toNatLE (ofNatLE 4 n) = n := by
  rw [toNatLE_ofNatLE]
  exact Nat.mod_eq_of_lt h

end Bytes

namespace Glb

theorem length_writeChunk (type : Nat) (payload : Bytes) :
    (writeChunk type payload).length = 8 + payload.length := by
  simp only [writeChunk, List.length_append, Bytes.ofNatLE_length]

/-- A written chunk in front of chunks. -/
theorem ChunkSequence.writeChunk {type : Nat} {payload rest : Bytes} {chunks : List Chunk}
    (htype : type < 0x100000000) (hpayload : payload.length < 0x100000000)
    (more : ChunkSequence rest chunks) :
    ChunkSequence (writeChunk type payload ++ rest) (⟨type, payload⟩ :: chunks) := by
  have hchunk := ChunkSequence.chunk (Bytes.ofNatLE_length 4 payload.length)
    (Bytes.ofNatLE_length 4 type) (Bytes.toNatLE_ofNatLE_four hpayload) more
  rwa [Bytes.toNatLE_ofNatLE_four htype] at hchunk

/-- The chunks behind the JSON chunk of a written container. -/
def writtenChunks (binary : Option Bytes) : List Chunk :=
  binary.elim [] fun payload => [⟨binaryType, Bytes.padTo4 payload 0⟩]

/-- The part of a written container behind its header. -/
def writtenBody (json : Bytes) (binary : Option Bytes) : Bytes :=
  writeChunk jsonType (Bytes.padTo4 json 0x20) ++
    binary.elim [] fun payload => writeChunk binaryType (Bytes.padTo4 payload 0)

theorem write_eq (json : Bytes) (binary : Option Bytes) :
    write json binary = magic ++ Bytes.ofNatLE 4 version ++
      Bytes.ofNatLE 4 (12 + (writtenBody json binary).length) ++ writtenBody json binary := by
  cases binary <;> rfl

theorem length_write (json : Bytes) (binary : Option Bytes) :
    (write json binary).length = 12 + (writtenBody json binary).length := by
  simp only [write_eq, List.length_append, Bytes.ofNatLE_length]
  rfl

theorem chunkSequence_writtenBody {json : Bytes} {binary : Option Bytes}
    (h : (writtenBody json binary).length < 0x100000000) :
    ChunkSequence (writtenBody json binary)
      (⟨jsonType, Bytes.padTo4 json 0x20⟩ :: writtenChunks binary) := by
  rw [writtenBody, List.length_append, length_writeChunk] at h
  apply ChunkSequence.writeChunk (by decide) (by omega)
  cases binary with
  | none => exact .leftover (by simp)
  | some payload =>
      simp only [Option.elim_some, length_writeChunk] at h
      rw [Option.elim_some, ← List.append_nil (Glb.writeChunk binaryType (Bytes.padTo4 payload 0))]
      exact .writeChunk (by decide) (by omega) (.leftover (by simp))

theorem container_write {json : Bytes} {binary : Option Bytes}
    (h : (write json binary).length < 0x100000000) :
    Container (write json binary) (Bytes.padTo4 json 0x20) (writtenChunks binary) := by
  have hlength := length_write json binary
  have hdeclared : declaredLength (write json binary) = (write json binary).length := by
    have hhead : (magic ++ Bytes.ofNatLE 4 version).length = 8 := rfl
    rw [declaredLength, hlength, write_eq, Bytes.natAt_append hhead (Bytes.ofNatLE_length 4 _),
      Bytes.toNatLE_ofNatLE_four (by omega)]
  refine ⟨?_, ?_, ?_, ?_, ?_⟩
  · rw [write_eq]
    rfl
  · have hmagic : magic.length = 4 := rfl
    rw [write_eq, List.append_assoc, Bytes.natAt_append hmagic (Bytes.ofNatLE_length 4 _)]
    rfl
  · rw [hdeclared, hlength, writtenBody, List.length_append, length_writeChunk]
    omega
  · exact hdeclared.le
  · have hdrop : (write json binary).drop 12 = writtenBody json binary := by
      rw [write_eq]
      rfl
    rw [hdeclared, List.take_length, hdrop]
    exact chunkSequence_writtenBody (by omega)

theorem read_write {json : Bytes} {binary : Option Bytes}
    (h : (write json binary).length < 0x100000000) :
    read (write json binary) =
      .ok ⟨Bytes.padTo4 json 0x20, binary.map (Bytes.padTo4 · 0), []⟩ := by
  rw [read_of_container (container_write h)]
  cases binary <;> rfl

theorem isGlb_write (json : Bytes) (binary : Option Bytes) : isGlb (write json binary) = true := by
  rw [write_eq]
  rfl

/-- What parses as JSON is no container. -/
theorem isGlb_eq_false {json : Bytes} {v : Json} (h : Json.parse json = .ok v) :
    isGlb json = false := by
  rw [isGlb, beq_eq_false_iff_ne]
  intro hmagic
  cases json with
  | nil => cases hmagic
  | cons b bs =>
      rw [List.take_succ_cons, magic, List.cons.injEq] at hmagic
      rw [hmagic.1] at h
      exact Json.parse_g bs v h

end Glb

/-- The document with content in its first buffer. -/
def Document.fillFirst (d : Document) (content : Bytes) : Document :=
  { d with buffers := d.buffers.modifyHead ({ · with data := some content }) }

theorem bindBinary_padTo4 {first : Buffer} (others : List Buffer) {content : Bytes}
    (huri : first.uri = none) (hlength : first.byteLength = content.length) :
    bindBinary (Bytes.padTo4 content 0) (first :: others) =
      ({ first with data := some content } :: others, none) := by
  -- There are at most three bytes of padding, which is as much as binding allows.
  obtain ⟨k, hk, hpadded, -⟩ := Bytes.padded_padTo4 0 content
  have hlong : (Bytes.padTo4 content 0).length = content.length + k := by
    rw [hpadded, List.length_append, List.length_replicate]
  have hslice : Bytes.slice (Bytes.padTo4 content 0) 0 first.byteLength = content := by
    have hshort : content.length ≤ (Bytes.padTo4 content 0).length := by omega
    rw [hlength]
    refine (Bytes.slice_eq_take_drop (Nat.zero_le _) hshort).trans ?_
    rw [hpadded, List.drop_zero, Nat.sub_zero, List.take_left]
  rw [bindBinary, if_neg (by simp [huri]), if_neg (by omega), if_neg (by omega), hslice]

namespace Draft

def fillFirst (content : Bytes) (d : Draft) : Draft :=
  ⟨d.document.fillFirst content, d.diagnostics⟩

theorem bind_padTo4 {d : Draft} {first : Buffer} {others : List Buffer} {content : Bytes}
    (hbuffers : d.document.buffers = first :: others) (huri : first.uri = none)
    (hlength : first.byteLength = content.length) :
    d.bind (some (Bytes.padTo4 content 0)) = d.fillFirst content := by
  simp only [bind, hbuffers, bindBinary_padTo4 others huri hlength, add, fillFirst,
    Document.fillFirst, List.modifyHead_cons, Option.map_none, Option.toList_none, List.append_nil]

variable {m : Type → Type} [Monad m] [LawfulMonad m]

/-- A buffer without a URI is left alone, whatever it holds. -/
theorem resolveBuffers_cons (loader : Option (Loader m)) (ro : ReadOptions) (i : Nat)
    {first : Buffer} (others : List Buffer) (huri : first.uri = none) :
    resolveBuffers loader ro i (first :: others) =
      (fun r => (first :: r.1, r.2)) <$> resolveBuffers loader ro (i + 1) others := by
  have hfirst : resolveBuffer loader ro first = pure (first, none) := by
    rw [resolveBuffer, huri]
    cases first.data <;> rfl
  simp [resolveBuffers, hfirst]

theorem resolve_fillFirst (loader : Option (Loader m)) (ro : ReadOptions) {d : Draft}
    {first : Buffer} {others : List Buffer} (content : Bytes)
    (hbuffers : d.document.buffers = first :: others) (huri : first.uri = none) :
    (d.fillFirst content).resolve loader ro = fillFirst content <$> d.resolve loader ro := by
  have hfilled : (d.fillFirst content).document.buffers =
      { first with data := some content } :: others := by
    simp only [fillFirst, Document.fillFirst, hbuffers, List.modifyHead_cons]
  rw [resolve, resolve, hbuffers, hfilled, resolveBuffers_cons loader ro 0 others huri,
    resolveBuffers_cons loader ro 0 others (by exact huri)]
  simp [add, fillFirst, Document.fillFirst]

theorem attach_eq_resolve (c : Collaborators m) {ro : ReadOptions}
    (hmeshopt : ro.decodeMeshopt = false) (hdraco : ro.decodeDraco = false)
    (himages : ro.decodeImages = false) (chunk : Option Bytes) (d : Draft) :
    d.attach c ro chunk = Except.ok <$> (d.bind chunk).resolve c.loader ro := by
  simp [attach, hmeshopt, hdraco, himages]

end Draft

section
variable {m : Type → Type} [Monad m] {c : Collaborators m} {o : Options} {ro : ReadOptions}
  {json content : Bytes} {binary : Option Bytes} {members : List (String × Json)}

theorem read_json {v : Json} (hjson : Json.parse json = .ok v) :
    read c o ro json = readContents c o ro ⟨json, none, []⟩ := by
  rw [read, contents, Glb.isGlb_eq_false hjson]
  rfl

theorem read_write (fits : (Glb.write json binary).length < 0x100000000) :
    read c o ro (Glb.write json binary) =
      readContents c o ro ⟨Bytes.padTo4 json 0x20, binary.map (Bytes.padTo4 · 0), []⟩ := by
  rw [read, contents, Glb.isGlb_write, if_pos rfl, Glb.read_write fits]

variable [LawfulMonad m] (hmeshopt : ro.decodeMeshopt = false) (hdraco : ro.decodeDraco = false)
  (himages : ro.decodeImages = false)
include hmeshopt hdraco himages

/-- Reading where nothing but buffers is resolved, for a JSON text that holds an object. -/
theorem readContents_object (hjson : Json.parse json = .ok (.object members)) :
    readContents c o ro ⟨json, binary, []⟩ =
      (fun d => .ok (.document d.document d.diagnostics)) <$>
        ((Draft.ofMembers o members).bind binary).resolve c.loader ro := by
  simp only [readContents, hjson, Draft.attach_eq_resolve c hmeshopt hdraco himages]
  simp

theorem read_json_object (hjson : Json.parse json = .ok (.object members)) :
    read c o ro json = (fun d => .ok (.document d.document d.diagnostics)) <$>
      (Draft.ofMembers o members).resolve c.loader ro := by
  rw [read_json hjson, readContents_object hmeshopt hdraco himages hjson]
  rfl

/-- The loader is called as for the document on its own. -/
theorem read_write_some (fits : (Glb.write json (some content)).length < 0x100000000)
    (hjson : Json.parse json = .ok (.object members)) {first : Buffer} {others : List Buffer}
    (hbuffers : (Draft.ofMembers o members).document.buffers = first :: others)
    (huri : first.uri = none) (hlength : first.byteLength = content.length) :
    read c o ro (Glb.write json (some content)) =
      (fun d => .ok (.document (d.document.fillFirst content) d.diagnostics)) <$>
        (Draft.ofMembers o members).resolve c.loader ro := by
  have hpadded : Json.parse (Bytes.padTo4 json 0x20) = .ok (.object members) :=
    Json.parse_append_spaces _ hjson
  rw [read_write fits, readContents_object hmeshopt hdraco himages hpadded, Option.map_some,
    Draft.bind_padTo4 hbuffers huri hlength,
    Draft.resolve_fillFirst c.loader ro content hbuffers huri, Functor.map_map]
  rfl

end

theorem Draft.head?_resolve {loader : Option (Loader Id)} {ro : ReadOptions} {d : Draft}
    {first : Buffer} {others : List Buffer} (hbuffers : d.document.buffers = first :: others)
    (huri : first.uri = none) :
    (Id.run (d.resolve loader ro)).document.buffers.head? = some first := by
  rw [resolve, hbuffers, resolveBuffers_cons loader ro 0 others huri]
  rfl

/-- A container that is shorter than four gigabytes is read as it was written, up to padding. If its
JSON declares a first buffer without a URI, as long as the binary part, then reading the container
and reading the JSON on its own find the same and give the same document, but for the content of
that buffer, which is the binary part without its padding. -/
theorem read_write_container (json : Bytes) (binary : Option Bytes)
    (fits : (Glb.write json binary).length < 0x100000000) :
    (∃ json' binary', Bytes.Padded 0x20 json json' ∧ Option.Rel (Bytes.Padded 0) binary binary' ∧
      Glb.read (Glb.write json binary) = .ok ⟨json', binary', []⟩) ∧
    ∀ (c : Collaborators Id) (o : Options) (ro : ReadOptions) (content : Bytes)
      (members : List (String × Json)) (first : Buffer) (others : List Buffer),
      binary = some content → ro.decodeMeshopt = false → ro.decodeDraco = false →
      ro.decodeImages = false → Json.parse json = .ok (.object members) →
      (Draft.ofMembers o members).document.buffers = first :: others →
      first.uri = none → first.byteLength = content.length →
      ∃ document diagnostics, document.buffers.head? = some first ∧
        Id.run (read c o ro json) = .ok (.document document diagnostics) ∧
        Id.run (read c o ro (Glb.write json binary)) =
          .ok (.document (document.fillFirst content) diagnostics) := by
  refine ⟨⟨_, _, Bytes.padded_padTo4 0x20 json, ?_, Glb.read_write fits⟩, ?_⟩
  · cases binary with
    | none => exact .none
    | some payload => exact .some (Bytes.padded_padTo4 0 payload)
  · rintro c o ro content members first others rfl hmeshopt hdraco himages hjson hbuffers huri
      hlength
    let d := Id.run ((Draft.ofMembers o members).resolve c.loader ro)
    refine ⟨d.document, d.diagnostics, Draft.head?_resolve hbuffers huri, ?_, ?_⟩
    · rw [read_json_object hmeshopt hdraco himages hjson]
      rfl
    · rw [read_write_some hmeshopt hdraco himages fits hjson hbuffers huri hlength]
      rfl

/-- A second buffer, of no declared length, is loaded in both runs. -/
theorem read_write_container_two_buffers :
    let json : Bytes :=
      [123, 34, 98, 117, 102, 102, 101, 114, 115, 34, 58, 91, 123, 34, 98, 121, 116, 101, 76, 101,
        110, 103, 116, 104, 34, 58, 49, 125, 44, 123, 34, 117, 114, 105, 34, 58, 34, 98, 34, 125,
        93, 125]
    let c : Collaborators Id := { loader := some fun _ => .ok [9] }
    let ro : ReadOptions := { decodeImages := false, decodeDraco := false, decodeMeshopt := false }
    ∃ document diagnostics, document.buffers.head? = some { byteLength := 1 } ∧
      Id.run (read c {} ro json) = .ok (.document document diagnostics) ∧
      Id.run (read c {} ro (Glb.write json (some [7]))) =
        .ok (.document (document.fillFirst [7]) diagnostics) := by
  intro json c ro
  let members : List (String × Json) :=
    [("buffers",
      .array [.object [("byteLength", .number (.int 1))], .object [("uri", .string "b")]])]
  have hjson : Json.parse json = .ok (.object members) := rfl
  have hbuffers : (Draft.ofMembers {} members).document.buffers =
      [{ byteLength := 1 }, { uri := some "b" }] := rfl
  exact (read_write_container json (some [7]) (by decide +kernel)).2 c {} ro [7] members _ _ rfl rfl
    rfl rfl hjson hbuffers rfl rfl

end Gltf
