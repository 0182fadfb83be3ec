import Gltf.Image.Decode
import Gltf.Proofs.Ktx2.Access
import Gltf.Proofs.Ktx2.Layout
import Mathlib

/-!
What is said of a KTX2 payload. The transcoder is any program: it may keep a state, refuse, break
off, or give pixels that no layout asked for. Whatever it does, there is either one error and no
image, or an image that is as large as the layout of the file.
-/

namespace Gltf.Image

open Ktx2 (Targets Tiles)

/-! ### The format -/

/-- The first byte tells KTX2 files from the other formats. -/
theorem sniff?_of_isKtx2 {bs : Bytes} (h : Ktx2.isKtx2 bs = true) : sniff? bs = some .ktx2 := by
  have htake : bs.take 12 = Ktx2.identifier := by simpa [Ktx2.isKtx2] using h
  have hshort {n : Nat} (hn : n ≤ 12) : bs.take n = Ktx2.identifier.take n := by
    rw [← htake, List.take_take, Nat.min_eq_left hn]
  have hpng : bs.take 8 ≠ Png.signature := by
    rw [hshort (by decide)]
    decide
  have hjpeg : bs.take 3 ≠ Jpeg.signature := by
    rw [hshort (by decide)]
    decide
  rw [sniff?, if_neg hpng, if_neg hjpeg, if_pos h]

/-- A media type that rules no image out: none, an empty one, or a supported one. -/
def Admitted (mimeType : Option String) : Prop :=
  ∀ name ∈ mimeType, name = "" ∨ Text.lowerString name ∈ supportedNames

theorem not_isRefused_of_admitted {mimeType : Option String} (h : Admitted mimeType) :
    isRefused (mimeType.getD "") = false := by
  cases mimeType with
  | none => rfl
  | some name =>
      obtain hempty | hsupported := h name rfl
      · simp [isRefused, hempty]
      · have hcontained : supportedNames.contains (Text.lowerString name) = true :=
          List.contains_iff_mem.2 hsupported
        simp only [isRefused, Option.getD_some, hcontained, Bool.not_true, Bool.and_false]

/-! ### Pixels -/

/-- An image that is as large as the layout of its file. -/
structure Fits (bs : Bytes) (l : Ktx2.Layout) (image : ImageData) : Prop where
  width : image.width = Bytes.natAt bs 20 4
  height : image.height = max 1 (Bytes.natAt bs 24 4)
  size : image.pixels.length = l.totalSize
  mips : image.mips = [] ∨ Tiles 0 image.mips image.pixels.length

theorem tiles_of_layout {bs : Bytes} {targets : Targets} {l : Ktx2.Layout}
    (h : Ktx2.layout bs targets = .ok l) : Tiles 0 l.levels l.totalSize := by
  obtain ⟨goal, -, -, -, hlevels⟩ := Ktx2.exists_of_layout h
  have htiles := Ktx2.tiles_packed 0
    ((List.range l.header.storedLevelCount).map (Ktx2.sizeAt l.header goal.block))
  have htotal : l.totalSize =
      ((List.range l.header.storedLevelCount).map (Ktx2.sizeAt l.header goal.block)).sum := by
    rw [Ktx2.Layout.totalSize, hlevels, Ktx2.map_size_packed]
    rfl
  rwa [Nat.zero_add, ← hlevels, ← htotal] at htiles

theorem ofPixels_of_length {l : Ktx2.Layout} {pixels : Bytes} (h : pixels.length = l.totalSize) :
    ofPixels l pixels =
      .ok { width := l.header.width, height := max 1 l.header.height, channels := l.channels
            format := l.format, mips := l.mips, pixels } :=
  if_neg (not_not.2 h)

theorem fits_of_ofPixels {bs : Bytes} {targets : Targets} {l : Ktx2.Layout} {pixels : Bytes}
    {image : ImageData} (hl : Ktx2.layout bs targets = .ok l) (h : ofPixels l pixels = .ok image) :
    Fits bs l image := by
  obtain ⟨goal, hread, -, -, -⟩ := Ktx2.exists_of_layout hl
  obtain ⟨-, hheader⟩ := Ktx2.Header.read_eq_ok_iff.1 hread
  have hsize : pixels.length = l.totalSize := by
    by_contra hother
    rw [ofPixels, if_pos hother] at h
    cases h
  rw [ofPixels_of_length hsize] at h
  cases h
  refine ⟨?_, ?_, hsize, ?_⟩
  · rw [hheader]
    rfl
  · rw [hheader]
    rfl
  · show l.mips = [] ∨ Tiles 0 l.mips pixels.length
    rw [hsize, Ktx2.Layout.mips]
    split_ifs with hcount
    · exact .inr (tiles_of_layout hl)
    · exact .inl rfl

/-! ### The transcoder -/

variable {σ : Type}

/-- The pixels of a layout: those of the transcoder, or else the plain ones. -/
def transcode (transcoder : Option (Transcoder (StateM σ))) (bs : Bytes) (l : Ktx2.Layout) :
    StateM σ (Except Ktx2.TranscodeProblem Bytes) :=
  match transcoder with
  | some transcode => transcode bs l
  | none => pure (Ktx2.plainPixels bs l)

/-- What is said of a KTX2 file, and the state that the transcoder leaves. -/
inductive Says (targets : Targets) (transcoder : Option (Transcoder (StateM σ))) (bs : Bytes)
    (s : σ) : ReadResult → σ → Prop
  /-- The file has no layout. -/
  | malformed {problem : Ktx2.Problem} (hlayout : Ktx2.layout bs targets = .error problem) :
      Says targets transcoder bs s ⟨none, [problem.message], []⟩ s
  /-- The transcoder refuses or breaks off. -/
  | untranscoded {l : Ktx2.Layout} {problem : Ktx2.TranscodeProblem} {s' : σ}
      (hlayout : Ktx2.layout bs targets = .ok l)
      (hrun : (transcode transcoder bs l).run s = (.error problem, s')) :
      Says targets transcoder bs s ⟨none, [problem.message], []⟩ s'
  /-- The pixels are not as many as the layout says. -/
  | misfit {l : Ktx2.Layout} {pixels : Bytes} {s' : σ} (hlayout : Ktx2.layout bs targets = .ok l)
      (hrun : (transcode transcoder bs l).run s = (.ok pixels, s'))
      (hsize : pixels.length ≠ l.totalSize) :
      Says targets transcoder bs s
        ⟨none, [(Ktx2.TranscodeProblem.totalSize pixels.length l.totalSize).message], []⟩ s'
  | decoded {l : Ktx2.Layout} {image : ImageData} {s' : σ}
      (hlayout : Ktx2.layout bs targets = .ok l)
      (hrun : (transcode transcoder bs l).run s = (.ok image.pixels, s'))
      (hfits : Fits bs l image) :
      Says targets transcoder bs s ⟨some image, [], []⟩ s'

/-- An image that is there comes without an error, and an image that is not with one. -/
theorem Says.image_or_error {targets : Targets} {transcoder : Option (Transcoder (StateM σ))}
    {bs : Bytes} {s s' : σ} {r : ReadResult} (h : Says targets transcoder bs s r s') :
    (r.image = none ∧ ∃ error, r.errors = [error]) ∨
      ∃ image l, r.image = some image ∧ r.errors = [] ∧ Ktx2.layout bs targets = .ok l ∧
        Fits bs l image := by
  cases h with
  | malformed => exact .inl ⟨rfl, _, rfl⟩
  | untranscoded => exact .inl ⟨rfl, _, rfl⟩
  | misfit => exact .inl ⟨rfl, _, rfl⟩
  | decoded hlayout hrun hfits => exact .inr ⟨_, _, rfl, rfl, hlayout, hfits⟩

theorem run_decodeKtx2_of_error (targets : Targets) (transcoder : Option (Transcoder (StateM σ)))
    {bs : Bytes} {problem : Ktx2.Problem} (h : Ktx2.layout bs targets = .error problem) (s : σ) :
    (decodeKtx2 targets transcoder bs).run s = (.error (.container problem), s) := by
  rw [decodeKtx2, h]
  rfl

/-- What becomes of the pixels that a transcoder gives, or of its problem. -/
def finish (l : Ktx2.Layout) : Except Ktx2.TranscodeProblem Bytes → Except Problem ImageData
  | .error problem => .error (.transcoding problem)
  | .ok pixels => ofPixels l pixels

/-- With a layout the transcoder is run once. -/
theorem run_decodeKtx2_of_ok {targets : Targets} {transcoder : Option (Transcoder (StateM σ))}
    {bs : Bytes} {l : Ktx2.Layout} {transcoded : Except Ktx2.TranscodeProblem Bytes} {s s' : σ}
    (h : Ktx2.layout bs targets = .ok l)
    (hrun : (transcode transcoder bs l).run s = (transcoded, s')) :
    (decodeKtx2 targets transcoder bs).run s = (finish l transcoded, s') := by
  have hbind : decodeKtx2 targets transcoder bs =
      transcode transcoder bs l >>= fun transcoded => pure (finish l transcoded) := by
    rw [decodeKtx2, h]
    cases transcoder <;> refine congrArg (Bind.bind _) (funext fun result => ?_) <;>
      cases result <;> rfl
  rw [hbind, StateT.run_bind, hrun]
  rfl

theorem exists_says (targets : Targets) (transcoder : Option (Transcoder (StateM σ))) (bs : Bytes)
    (s : σ) :
    ∃ result s', (decodeKtx2 targets transcoder bs).run s = (result, s') ∧
      Says targets transcoder bs s (.of result) s' := by
  cases hlayout : Ktx2.layout bs targets with
  | error problem =>
      exact ⟨_, _, run_decodeKtx2_of_error targets transcoder hlayout s, .malformed hlayout⟩
  | ok l =>
      rcases hrun : (transcode transcoder bs l).run s with ⟨problem | pixels, s'⟩
      · exact ⟨_, _, run_decodeKtx2_of_ok hlayout hrun, .untranscoded hlayout hrun⟩
      · refine ⟨ofPixels l pixels, s', run_decodeKtx2_of_ok hlayout hrun, ?_⟩
        by_cases hsize : pixels.length = l.totalSize
        · have himage := ofPixels_of_length hsize
          rw [himage]
          exact .decoded hlayout hrun (fits_of_ofPixels hlayout himage)
        · rw [ofPixels, if_pos hsize]
          exact .misfit hlayout hrun hsize

/-- Reading a KTX2 file stays inside it and ends, whatever the transcoder does, with one error or
with an image that fits the layout of the file. -/
theorem read_ktx2 (targets : Targets) (transcoder : Option (Transcoder (StateM σ)))
    {mimeType : Option String} {bs : Bytes} (hktx2 : Ktx2.isKtx2 bs = true)
    (hadmitted : Admitted mimeType) (s : σ) :
    Ktx2.layout? bs targets = some (Ktx2.layout bs targets) ∧
      ∃ r s', (read targets transcoder mimeType bs).run s = (r, s') ∧
        Says targets transcoder bs s r s' ∧
        ((r.image = none ∧ ∃ error, r.errors = [error]) ∨
          ∃ image l, r.image = some image ∧ r.errors = [] ∧ Ktx2.layout bs targets = .ok l ∧
            Fits bs l image) := by
  refine ⟨Ktx2.layout?_eq bs targets, ?_⟩
  obtain ⟨result, s', hrun, hsays⟩ := exists_says targets transcoder bs s
  have hread : (read targets transcoder mimeType bs).run s = (.of result, s') := by
    rw [read, decode, if_neg (by simp [not_isRefused_of_admitted hadmitted]),
      sniff?_of_isKtx2 hktx2, StateT.run_bind, hrun]
    rfl
  exact ⟨.of result, s', hread, hsays, hsays.image_or_error⟩

/-- A transcoder that counts its runs, of a file with three levels and a media type in capitals. -/
theorem read_ktx2_counted :
    let header : Ktx2.Header :=
      { vkFormat := 0, typeSize := 1, width := 5, height := 0, depth := 0, layerCount := 0
        faceCount := 1, levelCount := 3, supercompression := 1
        dfd := ⟨4294967295, 44⟩, kvd := ⟨0, 0⟩, sgd := ⟨0, 0⟩
        levels := [⟨0, 48, 0⟩, ⟨0, 24, 0⟩, ⟨0, 12, 0⟩] }
    let bs := header.encode
    let targets : Targets := { etc1sRgba := .bc7Rgba }
    let transcoder : Transcoder (StateM Nat) := fun _ l => do
      modify (· + 1)
      pure (.ok (List.replicate l.totalSize 7))
    Ktx2.isKtx2 bs = true ∧ Admitted (some "IMAGE/KTX2") ∧
      Ktx2.layout? bs targets = some (Ktx2.layout bs targets) ∧
      ∃ r s', (read targets (some transcoder) (some "IMAGE/KTX2") bs).run 0 = (r, s') ∧
        Says targets (some transcoder) bs 0 r s' ∧
        ((r.image = none ∧ ∃ error, r.errors = [error]) ∨
          ∃ image l, r.image = some image ∧ r.errors = [] ∧ Ktx2.layout bs targets = .ok l ∧
            Fits bs l image) := by
  intro header bs targets transcoder
  have hktx2 : Ktx2.isKtx2 bs = true := by decide +revert +kernel
  have hadmitted : Admitted (some "IMAGE/KTX2") := by
    rintro name ⟨⟩
    exact .inr (by decide +kernel)
  exact ⟨hktx2, hadmitted, read_ktx2 targets (some transcoder) hktx2 hadmitted 0⟩

end Gltf.Image
