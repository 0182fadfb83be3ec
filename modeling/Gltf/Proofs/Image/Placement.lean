import Gltf.Proofs.Accessor.Parts
import Gltf.Proofs.Image.Containers
import Mathlib

/-!
Where the levels of a KTX2 file lie in its pixels. Without a transcoder the levels of a plain format
are cut from the file, decompressed one by one and put one behind the other. In the file they may lie
in any order and overlap; in the pixels each lies in its place of the layout.
-/

namespace Gltf

/-- The part of pixels at a position. -/
def MipPosition.part (p : MipPosition) (pixels : Bytes) : Bytes := (pixels.drop p.offset).take p.size

namespace Ktx2

variable {ds : Decompressors} {bs : Bytes} {targets : Targets} {l : Layout} {scheme : ℕ}

/-! ### Contents of levels -/

/-- The bytes of a level as they lie in a file. -/
def Level.stored (level : Level) (bs : Bytes) : Bytes := (bs.drop level.offset).take level.length

/-- What the stored bytes of a level are decompressed to. Scheme 0 keeps them, 2 is Zstandard and 3 is
zlib. -/
inductive Decompresses (ds : Decompressors) (level : Level) (stored : Bytes) : ℕ → Bytes → Prop
  | plain : Decompresses ds level stored 0 stored
  | zstandard {content : Bytes} (frame : ds.zstandard stored level.uncompressedLength = .ok content) :
      Decompresses ds level stored 2 content
  | zlib {content : Bytes} (stream : ds.zlib stored = .ok content) :
      Decompresses ds level stored 3 content

theorem Decompresses.scheme_cases {level : Level} {stored content : Bytes}
    (h : Decompresses ds level stored scheme content) : scheme = 0 ∨ scheme = 2 ∨ scheme = 3 := by
  cases h with
  | plain => exact .inl rfl
  | zstandard frame => exact .inr (.inl rfl)
  | zlib stream => exact .inr (.inr rfl)

theorem decompressLevel_eq_ok_iff {index : ℕ} {level : Level} {stored content : Bytes} :
    decompressLevel ds scheme index level stored = .ok content ↔
      Decompresses ds level stored scheme content := by
  constructor
  · intro h
    rw [decompressLevel.eq_def] at h
    split at h
    · cases h
      exact .plain
    · exact .zstandard (mapError_eq_ok_iff.1 h)
    · exact .zlib (mapError_eq_ok_iff.1 h)
    · cases h
  · intro h
    cases h with
    | plain => rfl
    | zstandard frame => exact mapError_eq_ok_iff.2 frame
    | zlib stream => exact mapError_eq_ok_iff.2 stream

/-- A level whose content is as long as its place. -/
def FitsPlace (ds : Decompressors) (bs : Bytes) (scheme : ℕ) (level : Level) (place : MipPosition) : Prop :=
  ∃ content, Decompresses ds level (level.stored bs) scheme content ∧ content.length = place.size

/-- Contents of levels one behind the other, each as long as its place. -/
inductive Joined (ds : Decompressors) (bs : Bytes) (scheme : ℕ) : List Level → List MipPosition → Bytes → Prop
  | nil : Joined ds bs scheme [] [] []
  | cons {level : Level} {levels : List Level} {place : MipPosition} {places : List MipPosition}
      {content pixels : Bytes} (first : Decompresses ds level (level.stored bs) scheme content)
      (size : content.length = place.size) (rest : Joined ds bs scheme levels places pixels) :
      Joined ds bs scheme (level :: levels) (place :: places) (content ++ pixels)

theorem Joined.length_eq {levels : List Level} {places : List MipPosition} {pixels : Bytes}
    (h : Joined ds bs scheme levels places pixels) : levels.length = places.length := by
  induction h with
  | nil => rfl
  | cons first size rest ih => exact congrArg Nat.succ ih

theorem levelPixels_cons_eq_ok_iff {index : ℕ} {level : Level} {levels : List Level}
    {place : MipPosition} {places : List MipPosition} {pixels : Bytes} :
    levelPixels ds bs scheme index (level :: levels) (place :: places) = .ok pixels ↔
      ∃ content rest, Decompresses ds level (level.stored bs) scheme content ∧
        content.length = place.size ∧
        levelPixels ds bs scheme (index + 1) levels places = .ok rest ∧ pixels = content ++ rest := by
  rw [levelPixels, bind_eq_ok_iff]
  refine exists_congr fun content => ?_
  rw [show (bs.drop level.offset).take level.length = level.stored bs from rfl,
    decompressLevel_eq_ok_iff]
  by_cases hsize : content.length = place.size
  · rw [if_neg (not_not.2 hsize), bind_eq_ok_iff]
    simp [hsize, eq_comm]
  · simp [hsize]

theorem levelPixels_eq_ok_iff {index : ℕ} {levels : List Level} {places : List MipPosition}
    {pixels : Bytes} (hlength : levels.length = places.length) :
    levelPixels ds bs scheme index levels places = .ok pixels ↔ Joined ds bs scheme levels places pixels := by
  constructor
  · intro h
    induction levels generalizing index places pixels with
    | nil =>
        obtain rfl := List.length_eq_zero_iff.1 hlength.symm
        cases h
        exact .nil
    | cons level levels ih =>
        obtain _ | ⟨place, places⟩ := places
        · cases hlength
        obtain ⟨content, rest, first, size, hrest, rfl⟩ := levelPixels_cons_eq_ok_iff.1 h
        exact .cons first size (ih (Nat.succ.inj hlength) hrest)
  · intro h
    induction h generalizing index with
    | nil => rfl
    | cons first size rest ih =>
        exact levelPixels_cons_eq_ok_iff.2
          ⟨_, _, first, size, ih (Nat.succ.inj hlength), rfl⟩

theorem exists_joined_iff {levels : List Level} {places : List MipPosition} :
    (∃ pixels, Joined ds bs scheme levels places pixels) ↔
      List.Forall₂ (FitsPlace ds bs scheme) levels places := by
  constructor
  · rintro ⟨pixels, h⟩
    induction h with
    | nil => exact .nil
    | cons first size rest ih => exact .cons ⟨_, first, size⟩ ih
  · intro h
    induction h with
    | nil => exact ⟨[], .nil⟩
    | cons hfits _ ih =>
        obtain ⟨content, first, size⟩ := hfits
        obtain ⟨pixels, rest⟩ := ih
        exact ⟨content ++ pixels, .cons first size rest⟩

/-- Contents that are joined over tiles reach as far as the tiles do, and each lies in its place. -/
theorem Joined.placed {levels : List Level} {places : List MipPosition} {pixels : Bytes}
    {start stop : ℕ} (h : Joined ds bs scheme levels places pixels) (htiles : Tiles start places stop)
    (before : Bytes) (hbefore : before.length = start) :
    (before ++ pixels).length = stop ∧
      List.Forall₂ (fun level place =>
        Decompresses ds level (level.stored bs) scheme (place.part (before ++ pixels))) levels places := by
  induction h generalizing start before with
  | nil =>
      cases htiles
      simp [hbefore]
  | @cons level levels place places content pixels first size rest ih =>
      cases htiles with
      | @cons width _ _ offset hrest =>
          subst hbefore
          -- Before the rest lie the bytes before the content and the content itself.
          have hpart : MipPosition.part ⟨before.length, width⟩ (before ++ (content ++ pixels)) =
              content := by
            rw [MipPosition.part, List.drop_left, ← size, List.take_left]
          have hnext := ih hrest (before ++ content) (by simp [size])
          rw [List.append_assoc] at hnext
          exact ⟨hnext.1, .cons (hpart.symm ▸ first) hnext.2⟩

/-! ### Levels that are not compressed -/

theorem misfit?_eq_none_iff {k : ℕ} {levels : List Level} {places : List MipPosition}
    (hlength : levels.length = places.length) :
    misfit? k levels places = none ↔
      List.Forall₂ (fun level place => level.length = place.size) levels places := by
  induction levels generalizing k places with
  | nil =>
      obtain rfl := List.length_eq_zero_iff.1 hlength.symm
      simp [misfit?]
  | cons level levels ih =>
      obtain _ | ⟨place, places⟩ := places
      · cases hlength
      rw [misfit?, List.forall₂_cons, ← ih (k := k + 1) (Nat.succ.inj hlength)]
      by_cases hsize : level.length = place.size
      · simp [hsize]
      · simp [hsize]

theorem misfit?_of_layout (h : layout bs targets = .ok l) (hbasis : l.header.isBasis = false)
    (hscheme : l.header.supercompression = 0) : misfit? 0 l.header.levels l.levels = none := by
  rw [layout] at h
  split at h
  · cases h
  · split at h
    · cases h
    · rw [Goal.layout] at h
      split at h
      · cases h
      · rename_i hfits
        cases h
        dsimp only at hbasis hscheme
        rwa [hbasis, hscheme] at hfits

theorem Level.length_stored {level : Level} (h : level.offset + level.length ≤ bs.length) :
    (level.stored bs).length = level.length := by
  rw [Level.stored, List.length_take, List.length_drop]
  omega

/-- Levels that are not compressed fit their places, since the layout checks their lengths and the
header that they lie in the file. -/
theorem forall₂_fitsPlace_plain (h : layout bs targets = .ok l) (hbasis : l.header.isBasis = false)
    (hscheme : l.header.supercompression = 0) :
    List.Forall₂ (FitsPlace ds bs 0) l.header.levels l.levels := by
  obtain ⟨goal, hread, -, -, hfills⟩ := fills_of_layout h
  obtain ⟨hreadable, hheader⟩ := Header.read_eq_ok_iff.1 hread
  have hinside : ∀ level ∈ l.header.levels, level.offset + level.length ≤ bs.length :=
    hheader ▸ hreadable.levels
  have hlengths := (misfit?_eq_none_iff hfills.stored).1 (misfit?_of_layout h hbasis hscheme)
  refine ((List.forall₂_and_left _ _).2 ⟨hinside, hlengths⟩).imp ?_
  rintro level place ⟨hlevel, hsize⟩
  exact ⟨level.stored bs, .plain, (Level.length_stored hlevel).trans hsize⟩

theorem isBasis_of_rawPixelSize? {h : Header} {size : ℕ} (hraw : rawPixelSize? h.vkFormat = some size) :
    h.isBasis = false := by
  rw [Header.isBasis, beq_eq_false_iff_ne]
  intro hzero
  rw [hzero] at hraw
  cases hraw

end Ktx2

/-! ### Images -/

namespace Image

open Ktx2 (Decompresses Decompressors FitsPlace Joined Targets)

/-- The transcoder for plain formats that decompresses levels in a given way. -/
def plainTranscoder {σ : Type} (ds : Decompressors) : Transcoder (StateM σ) := fun bs l =>
  pure (Ktx2.plainPixelsBy ds bs l)

theorem decodeKtx2_none {σ : Type} (targets : Targets) (bs : Bytes) :
    decodeKtx2 targets (none : Option (Transcoder (StateM σ))) bs =
      decodeKtx2 targets (some (plainTranscoder .standard)) bs := by
  rw [decodeKtx2, decodeKtx2]
  cases Ktx2.layout bs targets <;> rfl

section
variable {ds : Decompressors} {bs : Bytes} {targets : Targets} {l : Ktx2.Layout}
  (hlayout : Ktx2.layout bs targets = .ok l)
include hlayout

/-- Contents that are joined over a layout are as many bytes as it says, each in its place. -/
theorem placed_of_layout {scheme : ℕ} {pixels : Bytes}
    (h : Joined ds bs scheme l.header.levels l.levels pixels) :
    pixels.length = l.totalSize ∧
      List.Forall₂ (fun level place =>
        Decompresses ds level (level.stored bs) scheme (place.part pixels)) l.header.levels l.levels :=
  h.placed (tiles_of_layout hlayout) [] rfl

/-- A file has at least one level, so its levels fit only under a known scheme. -/
theorem scheme_of_forall₂_fitsPlace {scheme : ℕ}
    (h : List.Forall₂ (FitsPlace ds bs scheme) l.header.levels l.levels) :
    scheme = 0 ∨ scheme = 2 ∨ scheme = 3 := by
  obtain ⟨goal, -, -, -, hfills⟩ := Ktx2.fills_of_layout hlayout
  have hcount := hfills.count
  cases hplaces : l.levels with
  | nil =>
      rw [hplaces, List.length_nil] at hcount
      omega
  | cons place places =>
      rw [hplaces] at h
      generalize l.header.levels = levels at h
      cases h with
      | cons hfits _ =>
          obtain ⟨content, hcontent, -⟩ := hfits
          exact hcontent.scheme_cases

variable (hbasis : l.header.isBasis = false)
include hbasis

theorem plainPixelsBy_eq_ok_iff {pixels : Bytes} :
    Ktx2.plainPixelsBy ds bs l = .ok pixels ↔
      Joined ds bs l.header.supercompression l.header.levels l.levels pixels := by
  obtain ⟨goal, -, -, -, hfills⟩ := Ktx2.fills_of_layout hlayout
  rw [Ktx2.plainPixelsBy, hbasis, if_neg (by decide), Ktx2.levelPixels_eq_ok_iff hfills.stored]

theorem joined_of_finish {image : ImageData} (h : finish l (Ktx2.plainPixelsBy ds bs l) = .ok image) :
    Joined ds bs l.header.supercompression l.header.levels l.levels image.pixels := by
  cases hpixels : Ktx2.plainPixelsBy ds bs l with
  | error problem =>
      rw [hpixels] at h
      cases h
  | ok pixels =>
      have hjoined := (plainPixelsBy_eq_ok_iff hlayout hbasis).1 hpixels
      rw [hpixels, finish, ofPixels_of_length (placed_of_layout hlayout hjoined).1] at h
      cases h
      exact hjoined

/-- Levels that fit their places make an image. -/
theorem exists_finish_iff :
    (∃ image, finish l (Ktx2.plainPixelsBy ds bs l) = .ok image) ↔
      List.Forall₂ (FitsPlace ds bs l.header.supercompression) l.header.levels l.levels := by
  rw [← Ktx2.exists_joined_iff]
  constructor
  · rintro ⟨image, h⟩
    exact ⟨image.pixels, joined_of_finish hlayout hbasis h⟩
  · rintro ⟨pixels, hjoined⟩
    rw [(plainPixelsBy_eq_ok_iff hlayout hbasis).2 hjoined]
    exact ⟨_, ofPixels_of_length (placed_of_layout hlayout hjoined).1⟩

end

/-- Without a transcoder, levels are decompressed with Zstandard and zlib. In whatever way that is done,
a file of a plain format that has a layout becomes an image exactly if it is not compressed, or
compressed with one of the two, and each of its levels decompresses to as many bytes as its place has.
The pixels are then as many as the layout says, and in the place of each level lies what it decompresses
to. A file that is not compressed always becomes an image. -/
theorem decodeKtx2_places_levels {σ : Type} {bs : Bytes} {targets : Targets} {l : Ktx2.Layout}
    {size : ℕ} (hlayout : Ktx2.layout bs targets = .ok l)
    (hraw : Ktx2.rawPixelSize? l.header.vkFormat = some size) (ds : Decompressors) (s : σ) :
    decodeKtx2 targets (none : Option (Transcoder (StateM σ))) bs =
        decodeKtx2 targets (some (plainTranscoder .standard)) bs ∧
      ∃ result, (decodeKtx2 targets (some (plainTranscoder ds)) bs).run s = (result, s) ∧
        ((∃ image, result = .ok image) ↔
          (l.header.supercompression = 0 ∨ l.header.supercompression = 2 ∨
            l.header.supercompression = 3) ∧
          List.Forall₂ (fun level place => ∃ content,
            Decompresses ds level (level.stored bs) l.header.supercompression content ∧
              content.length = place.size) l.header.levels l.levels) ∧
        (∀ image, result = .ok image →
          image.pixels.length = l.totalSize ∧
          List.Forall₂ (fun level place =>
            Decompresses ds level (level.stored bs) l.header.supercompression
              (place.part image.pixels)) l.header.levels l.levels) ∧
        (l.header.supercompression = 0 → ∃ image, result = .ok image) := by
  have hbasis := Ktx2.isBasis_of_rawPixelSize? hraw
  refine ⟨decodeKtx2_none targets bs, finish l (Ktx2.plainPixelsBy ds bs l),
    run_decodeKtx2_of_ok hlayout rfl, ?_, ?_, ?_⟩
  · rw [exists_finish_iff hlayout hbasis]
    exact ⟨fun h => ⟨scheme_of_forall₂_fitsPlace hlayout h, h⟩, And.right⟩
  · intro image himage
    exact placed_of_layout hlayout (joined_of_finish hlayout hbasis himage)
  · intro hscheme
    rw [exists_finish_iff hlayout hbasis, hscheme]
    exact Ktx2.forall₂_fitsPlace_plain hlayout hbasis hscheme

/-- Two levels compressed with zlib, the smaller one first in the file. -/
theorem decodeKtx2_places_levels_swapped :
    let header : Ktx2.Header :=
      { vkFormat := 9, typeSize := 1, width := 2, height := 0, depth := 0, layerCount := 0
        faceCount := 1, levelCount := 2, supercompression := 3
        dfd := ⟨0, 0⟩, kvd := ⟨0, 0⟩, sgd := ⟨0, 0⟩
        levels := [⟨140, 13, 2⟩, ⟨128, 12, 1⟩] }
    let bs : Bytes := header.encode ++
      [0x78, 1, 1, 1, 0, 0xfe, 0xff, 3, 0, 4, 0, 4] ++
      [0x78, 1, 1, 2, 0, 0xfd, 0xff, 1, 2, 0, 6, 0, 4]
    let l : Ktx2.Layout := ⟨header, .none, 1, [⟨0, 2⟩, ⟨2, 1⟩], none⟩
    Ktx2.layout bs {} = .ok l ∧ Ktx2.rawPixelSize? l.header.vkFormat = some 1 ∧
      ∃ image, (decodeKtx2 {} (none : Option (Transcoder (StateM ℕ))) bs).run 5 = (.ok image, 5) ∧
        image.pixels.length = 3 ∧
        List.Forall₂ (fun level place => Decompresses .standard level (level.stored bs) 3
          (place.part image.pixels)) header.levels l.levels := by
  intro header bs l
  have hlarge : Decompressors.standard.zlib (Ktx2.Level.stored ⟨140, 13, 2⟩ bs) = .ok [1, 2] := by
    decide +revert +kernel
  have hsmall : Decompressors.standard.zlib (Ktx2.Level.stored ⟨128, 12, 1⟩ bs) = .ok [3] := by
    decide +revert +kernel
  have hlayout : Ktx2.layout bs {} = .ok l := by decide +revert +kernel
  have hraw : Ktx2.rawPixelSize? l.header.vkFormat = some 1 := rfl
  obtain ⟨hnone, result, hrun, hsome, hplaced, -⟩ :=
    decodeKtx2_places_levels hlayout hraw .standard (5 : ℕ)
  have hfits : List.Forall₂ (FitsPlace .standard bs 3) header.levels l.levels :=
    .cons ⟨_, .zlib hlarge, rfl⟩ (.cons ⟨_, .zlib hsmall, rfl⟩ .nil)
  obtain ⟨image, rfl⟩ := hsome.2 ⟨.inr (.inr rfl), hfits⟩
  exact ⟨hlayout, hraw, image, by rw [hnone, hrun], hplaced image rfl⟩

end Image

end Gltf
