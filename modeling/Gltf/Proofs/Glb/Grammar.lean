import Gltf.Glb
import Mathlib

/-!
What a GLB container is, said without the reader: a header whose declared length covers a JSON
chunk, any number of further chunks and fewer than eight bytes left over. The reader accepts exactly
the containers, and what lies past the declared length plays no part.
-/

namespace Gltf

namespace Bytes

theorem natAt_take_drop (bs : Bytes) {start stop offset width : Nat}
    (h : start + offset + width ≤ stop) :
    natAt ((bs.take stop).drop start) offset width = natAt bs (start + offset) width := by
  have hdrop : ((bs.take stop).drop start).drop offset =
      (bs.drop (start + offset)).take (stop - (start + offset)) := by
    rw [List.drop_drop, List.drop_take]
  rw [natAt, natAt, hdrop, List.take_take, Nat.min_eq_left (by omega)]

theorem natAt_append {before field after : Bytes} {offset width : Nat}
    (ho : before.length = offset) (hw : field.length = width) :
    natAt (before ++ field ++ after) offset width = toNatLE field := by
  subst ho hw
  simp [natAt]

theorem natAt_take (bs : Bytes) {stop offset width : Nat} (h : offset + width ≤ stop) :
    natAt (bs.take stop) offset width = natAt bs offset width := by
  simpa using natAt_take_drop bs (by omega : 0 + offset + width ≤ stop)

end Bytes

namespace Glb

/-- Chunks one behind the other. Each is its length and its type in four bytes, least significant
first, and as many bytes of payload; fewer than eight bytes at the end hold none. -/
inductive ChunkSequence : Bytes → List Chunk → Prop
  | leftover {bs : Bytes} (short : bs.length < 8) : ChunkSequence bs []
  | chunk {length type payload rest : Bytes} {chunks : List Chunk} (lengthWidth : length.length = 4)
      (typeWidth : type.length = 4) (lengthValue : Bytes.toNatLE length = payload.length)
      (more : ChunkSequence rest chunks) :
      ChunkSequence (length ++ type ++ payload ++ rest) (⟨Bytes.toNatLE type, payload⟩ :: chunks)

/-- The length that the header declares. -/
def declaredLength (bs : Bytes) : Nat := Bytes.natAt bs 8 4

/-- Bytes that are a container with this JSON and these chunks behind it. -/
structure Container (bs json : Bytes) (chunks : List Chunk) : Prop where
  magic : bs.take 4 = Glb.magic
  version : Bytes.natAt bs 4 4 = 2
  long : 20 ≤ declaredLength bs
  present : declaredLength bs ≤ bs.length
  body : ChunkSequence ((bs.take (declaredLength bs)).drop 12) (⟨jsonType, json⟩ :: chunks)

/-- The payload of the first chunk of binary type. -/
def firstBinary (chunks : List Chunk) : Option Bytes :=
  (chunks.find? (·.type = binaryType)).map (·.payload)

/-- The indices of the chunks of binary type; the first chunk behind the JSON has index 1. -/
def binaryIndices (chunks : List Chunk) : List Nat :=
  ((chunks.zipIdx 1).filter (·.1.type = binaryType)).map (·.2)

/-- One warning if the first binary chunk is not chunk 1, and one for every further one. -/
def expectedWarnings (chunks : List Chunk) : List Warning :=
  match binaryIndices chunks with
  | [] => []
  | first :: more =>
      (if first = 1 then [] else [.misplacedBinary first]) ++ more.map .repeatedBinary

theorem ChunkSequence.of_chunks? {bs : Bytes} {chunks : List Chunk}
    (h : chunks? bs = some chunks) : ChunkSequence bs chunks := by
  fun_induction chunks? bs generalizing chunks with
  | case1 bs short =>
      cases h
      exact .leftover short
  | case2 bs long length => cases h
  | case3 bs long length fits =>
      rename_i ih
      obtain ⟨rest, hrest, rfl⟩ := Option.map_eq_some_iff.1 h
      -- The bytes are cut into the four parts of a chunk and what follows it.
      have hsplit : bs.take 4 ++ (bs.drop 4).take 4 ++ (bs.drop 8).take length ++
          bs.drop (8 + length) = bs := by
        rw [List.append_assoc, List.append_assoc, ← List.drop_drop, List.take_append_drop,
          show bs.drop 8 = (bs.drop 4).drop 4 by rw [List.drop_drop], List.take_append_drop,
          List.take_append_drop]
      have hpayload : ((bs.drop 8).take length).length = length := by
        rw [List.length_take, List.length_drop]
        omega
      have hchunk : ChunkSequence (bs.take 4 ++ (bs.drop 4).take 4 ++ (bs.drop 8).take length ++
          bs.drop (8 + length))
          (⟨Bytes.toNatLE ((bs.drop 4).take 4), (bs.drop 8).take length⟩ :: rest) :=
        .chunk (by rw [List.length_take]; omega)
          (by rw [List.length_take, List.length_drop]; omega) (by rw [hpayload]; rfl) (ih hrest)
      rwa [hsplit] at hchunk

theorem ChunkSequence.chunks?_eq {bs : Bytes} {chunks : List Chunk}
    (h : ChunkSequence bs chunks) : chunks? bs = some chunks := by
  induction h with
  | leftover short => rw [chunks?, dif_pos short]
  | @chunk length type payload rest chunks lengthWidth typeWidth lengthValue more ih =>
      have hlength : Bytes.natAt (length ++ type ++ payload ++ rest) 0 4 = payload.length := by
        rw [List.append_assoc, List.append_assoc, ← List.nil_append (length ++ _),
          ← List.append_assoc, ← lengthValue]
        exact Bytes.natAt_append rfl lengthWidth
      have htype : Bytes.natAt (length ++ type ++ payload ++ rest) 4 4 = Bytes.toNatLE type := by
        rw [List.append_assoc _ payload]
        exact Bytes.natAt_append lengthWidth typeWidth
      have hhead : (length ++ type).length = 8 := by
        rw [List.length_append, lengthWidth, typeWidth]
      have hpayload : (length ++ type ++ payload ++ rest).drop 8 = payload ++ rest := by
        rw [List.append_assoc _ payload, ← hhead, List.drop_left]
      have hrest : (length ++ type ++ payload ++ rest).drop (8 + payload.length) = rest := by
        rw [← List.drop_drop, hpayload, List.drop_left]
      have htotal :
          (length ++ type ++ payload ++ rest).length = 8 + payload.length + rest.length := by
        rw [List.length_append, List.length_append, hhead]
      rw [chunks?, dif_neg (by omega), if_neg (by omega), hlength, hrest, ih, htype, hpayload,
        List.take_left]
      rfl

theorem chunks?_eq_some_iff {bs : Bytes} {chunks : List Chunk} :
    chunks? bs = some chunks ↔ ChunkSequence bs chunks :=
  ⟨.of_chunks?, ChunkSequence.chunks?_eq⟩

theorem binaryChunks_eq (index : Nat) (chunks : List Chunk) :
    binaryChunks index chunks =
      ((chunks.zipIdx index).filter (·.1.type = binaryType)).map fun c => (c.2, c.1.payload) := by
  induction chunks generalizing index with
  | nil => rfl
  | cons chunk chunks ih =>
      rw [binaryChunks, List.zipIdx_cons, List.filter_cons]
      by_cases h : chunk.type = binaryType
      · simp [h, ih]
      · simp [h, ih]

theorem head?_binaryChunks (index : Nat) (chunks : List Chunk) :
    (binaryChunks index chunks).head?.map (·.2) = firstBinary chunks := by
  induction chunks generalizing index with
  | nil => rfl
  | cons chunk chunks ih =>
      rw [binaryChunks, firstBinary, List.find?_cons]
      by_cases h : chunk.type = binaryType
      · simp [h]
      · simpa [h, firstBinary] using ih (index + 1)

theorem binaryWarnings_binaryChunks (chunks : List Chunk) :
    binaryWarnings (binaryChunks 1 chunks) = expectedWarnings chunks := by
  have hindices : binaryIndices chunks = (binaryChunks 1 chunks).map (·.1) := by
    rw [binaryChunks_eq, List.map_map]
    rfl
  rw [expectedWarnings, hindices]
  cases binaryChunks 1 chunks with
  | nil => rfl
  | cons first more =>
      simp only [binaryWarnings, List.map_cons, List.map_map, Function.comp_def]

/-- The chunks of a body that is long enough for one, by their places in the whole file. -/
theorem chunks?_body {bs : Bytes} (long : 20 ≤ declaredLength bs)
    (present : declaredLength bs ≤ bs.length) :
    chunks? ((bs.take (declaredLength bs)).drop 12) =
      if declaredLength bs < 20 + Bytes.natAt bs 12 4 then none
      else
        (chunks? ((bs.take (declaredLength bs)).drop (20 + Bytes.natAt bs 12 4))).map
          (⟨Bytes.natAt bs 16 4, (bs.drop 20).take (Bytes.natAt bs 12 4)⟩ :: ·) := by
  have hbody : ((bs.take (declaredLength bs)).drop 12).length = declaredLength bs - 12 := by
    rw [List.length_drop, List.length_take, Nat.min_eq_left present]
  have hlength : Bytes.natAt ((bs.take (declaredLength bs)).drop 12) 0 4 = Bytes.natAt bs 12 4 :=
    Bytes.natAt_take_drop bs (by omega)
  have htype : Bytes.natAt ((bs.take (declaredLength bs)).drop 12) 4 4 = Bytes.natAt bs 16 4 :=
    Bytes.natAt_take_drop bs (by omega)
  rw [chunks?, dif_neg (by omega)]
  simp only [hlength, htype, hbody, List.drop_drop]
  by_cases past : declaredLength bs < 20 + Bytes.natAt bs 12 4
  · rw [if_pos (by omega), if_pos past]
  · have hpayload : ((bs.take (declaredLength bs)).drop (12 + 8)).take (Bytes.natAt bs 12 4) =
        (bs.drop 20).take (Bytes.natAt bs 12 4) := by
      rw [List.drop_take, List.take_take, Nat.min_eq_left (by omega)]
    rw [if_neg (by omega), if_neg past, hpayload, ← Nat.add_assoc]

theorem read_of_container {bs json : Bytes} {chunks : List Chunk} (h : Container bs json chunks) :
    read bs = .ok ⟨json, firstBinary chunks, expectedWarnings chunks⟩ := by
  obtain ⟨magic, version, long, present, body⟩ := h
  -- The reader takes the JSON chunk on its own and the others from behind it.
  have hbody := chunks?_eq_some_iff.2 body
  rw [chunks?_body long present] at hbody
  split at hbody
  · cases hbody
  · rename_i fits
    obtain ⟨rest, hrest, heq⟩ := Option.map_eq_some_iff.1 hbody
    simp only [List.cons.injEq, Chunk.mk.injEq] at heq
    obtain ⟨⟨htype, hjson⟩, rfl⟩ := heq
    rw [declaredLength] at long present fits hrest
    rw [read, if_neg (by omega), if_neg (by simpa using magic),
      if_neg (by simp [version, Glb.version]), if_neg (by omega), if_neg (by omega),
      if_neg (by simpa using htype), if_neg fits, hrest]
    simp only [hjson, head?_binaryChunks, binaryWarnings_binaryChunks]

theorem container_of_read {bs : Bytes} {contents : Contents} (h : read bs = .ok contents) :
    ∃ json chunks, Container bs json chunks ∧
      contents = ⟨json, firstBinary chunks, expectedWarnings chunks⟩ := by
  dsimp only [read] at h
  split_ifs at h with hshort hmagic hversion hpresent hlong htype hfits
  cases hchunks : chunks? ((bs.take (Bytes.natAt bs 8 4)).drop (20 + Bytes.natAt bs 12 4)) with
  | none => simp [hchunks] at h
  | some chunks =>
      simp only [hchunks, Except.ok.injEq, head?_binaryChunks, binaryWarnings_binaryChunks] at h
      refine ⟨(bs.drop 20).take (Bytes.natAt bs 12 4), chunks, ?_, h.symm⟩
      refine ⟨not_not.1 hmagic, not_not.1 hversion, not_lt.1 hlong, not_lt.1 hpresent, ?_⟩
      apply ChunkSequence.of_chunks?
      rw [chunks?_body (not_lt.1 hlong) (not_lt.1 hpresent), declaredLength, if_neg hfits, hchunks,
        not_not.1 htype]
      rfl

theorem read_eq_ok_iff {bs : Bytes} {contents : Contents} :
    read bs = .ok contents ↔ ∃ json chunks, Container bs json chunks ∧
      contents = ⟨json, firstBinary chunks, expectedWarnings chunks⟩ := by
  constructor
  · exact container_of_read
  · rintro ⟨json, chunks, hc, rfl⟩
    exact read_of_container hc

/-- Two files that agree up to the length that one of them declares are the same container. -/
theorem Container.of_take_eq {bs bs' json : Bytes} {chunks : List Chunk}
    (h : Container bs json chunks) (hlen : declaredLength bs ≤ bs'.length)
    (htake : bs'.take (declaredLength bs) = bs.take (declaredLength bs)) :
    Container bs' json chunks := by
  obtain ⟨magic, version, long, present, body⟩ := h
  -- All that is read lies before the declared length, which itself lies there.
  have hnat {offset : Nat} (ho : offset + 4 ≤ declaredLength bs) :
      Bytes.natAt bs' offset 4 = Bytes.natAt bs offset 4 := by
    rw [← Bytes.natAt_take bs' ho, htake, Bytes.natAt_take bs ho]
  have hdeclared : declaredLength bs' = declaredLength bs := hnat (by omega)
  have hmagic : bs'.take 4 = bs.take 4 := by
    have := congrArg (List.take 4) htake
    rwa [List.take_take, List.take_take, Nat.min_eq_left (by omega)] at this
  refine ⟨hmagic.trans magic, (hnat (by omega)).trans version, ?_, ?_, ?_⟩
  · rwa [hdeclared]
  · rwa [hdeclared]
  · rwa [hdeclared, htake]

/-- The reader returns exactly on containers, with the JSON, the first binary chunk and the warnings
that the chunks call for; everything else is a problem, and nothing past the declared length
counts. -/
theorem read_iff_container (bs : Bytes) :
    (∀ contents, read bs = .ok contents ↔ ∃ json chunks, Container bs json chunks ∧
      contents = ⟨json, firstBinary chunks, expectedWarnings chunks⟩) ∧
    ((¬∃ json chunks, Container bs json chunks) → ∃ problem, read bs = .error problem) ∧
    ∀ contents tail, read bs = .ok contents →
      read (bs.take (declaredLength bs) ++ tail) = .ok contents := by
  refine ⟨fun contents => read_eq_ok_iff, ?_, ?_⟩
  · intro hnone
    cases hread : read bs with
    | error problem => exact ⟨problem, rfl⟩
    | ok contents =>
        obtain ⟨json, chunks, hc, -⟩ := container_of_read hread
        exact absurd ⟨json, chunks, hc⟩ hnone
  · intro contents tail hread
    obtain ⟨json, chunks, hc, rfl⟩ := container_of_read hread
    have hlen : (bs.take (declaredLength bs)).length = declaredLength bs :=
      List.length_take_of_le hc.present
    apply read_of_container
    apply hc.of_take_eq
    · rw [List.length_append, hlen]
      omega
    · rw [List.take_append_of_le_length hlen.ge, List.take_take, Nat.min_self]

/-- A file with an empty chunk of another type before two binary chunks, three bytes left over and
two behind the end. -/
theorem read_iff_container_misplaced :
    let file : Bytes := magic ++ [2, 0, 0, 0, 50, 0, 0, 0] ++ writeChunk jsonType [0x7b, 0x7d] ++
      writeChunk 7 [] ++ writeChunk binaryType [5] ++ writeChunk binaryType [] ++ [1, 2, 3]
    read (file ++ [8, 9]) = .ok ⟨[0x7b, 0x7d], some [5], [.misplacedBinary 2, .repeatedBinary 3]⟩ ∧
      read (file ++ [4]) = .ok ⟨[0x7b, 0x7d], some [5], [.misplacedBinary 2, .repeatedBinary 3]⟩ ∧
      ∃ problem, read file.tail = .error problem := by
  intro file
  have hread : read (file ++ [8, 9]) =
      .ok ⟨[0x7b, 0x7d], some [5], [.misplacedBinary 2, .repeatedBinary 3]⟩ := by decide +kernel
  have hmagic : ¬∃ json chunks, Container file.tail json chunks := by
    rintro ⟨json, chunks, hc⟩
    exact absurd hc.magic (by decide +kernel)
  exact ⟨hread, (read_iff_container (file ++ [8, 9])).2.2 _ [4] hread,
    (read_iff_container file.tail).2.1 hmagic⟩

end Glb

end Gltf
