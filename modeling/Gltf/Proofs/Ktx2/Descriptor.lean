import Gltf.Ktx2.Channels
import Mathlib

/-!
What the channels of a Basis Universal payload are read from. A descriptor states how many samples it
has, and all of those are read that lie in the file, be it in the section of the descriptor or behind
it. Main statement: for which files the section alone decides the codec and the channels.
-/

namespace Gltf.Ktx2

/-- Two byte strings of one length that have the same bytes in a section. -/
structure Section.Agrees (s : Section) (bs cs : Bytes) : Prop where
  length : cs.length = bs.length
  bytes : ∀ i, s.offset ≤ i → i < s.offset + s.length → cs[i]? = bs[i]?

variable {h : Header} {bs cs : Bytes} {i place size : ℕ}

/-! ### Samples -/

namespace Header

/-- The number of samples of a descriptor that have their type, the last of their first four bytes,
among its first `size` bytes. -/
def samplesWithin (size : ℕ) : ℕ := (size - 16) / 16

/-- The samples in the section of the descriptor. -/
def heldSamples (h : Header) : ℕ := samplesWithin h.dfd.length

def blockSize (h : Header) (bs : Bytes) : ℕ := Bytes.natAt bs (h.dfd.offset + 10) 2

/-- The samples that are read: as many as the descriptor states, as long as they lie in the file. -/
def readSamples (h : Header) (bs : Bytes) : ℕ :=
  min ((h.blockSize bs - 24) / 16) (samplesWithin (bs.length - h.dfd.offset))

/-- Where the type of a sample lies. -/
def typePlace (h : Header) (i : ℕ) : ℕ := h.dfd.offset + 31 + 16 * i

def types (h : Header) (bs : Bytes) : List ℕ := sampleTypes bs (h.dfd.offset + 4)

def colourModel (h : Header) (bs : Bytes) : ℕ := byteAt bs (h.dfd.offset + 12)

/-- There is no descriptor, or it is cut off before its samples. -/
def Undescribed (h : Header) (bs : Bytes) : Prop :=
  h.dfd.length < 28 ∨ bs.length < h.dfd.offset + 28

/-- What the types of samples stand for in a colour model. -/
def meaning (h : Header) (model : ℕ) (types : List ℕ) : Codec × Channels :=
  match model with
  | 163 => (.etc1s, etc1sChannels types)
  | 166 => (.uastc, uastcChannels types)
  | _ => (h.defaultCodec, .rgba)

theorem basisChannels_of_undescribed (hbs : h.Undescribed bs) :
    basisChannels bs h = (h.defaultCodec, .rgba) := if_pos hbs

theorem basisChannels_of_described (hbs : ¬h.Undescribed bs) :
    basisChannels bs h = h.meaning (h.colourModel bs) (h.types bs) := if_neg hbs

theorem lt_samplesWithin_iff : i < samplesWithin size ↔ 32 + 16 * i ≤ size := by
  rw [samplesWithin]
  omega

theorem types_eq (h : Header) (bs : Bytes) :
    h.types bs = (List.range (h.readSamples bs)).map fun i => byteAt bs (h.typePlace i) % 16 := by
  have hfile (i : ℕ) : h.dfd.offset + 4 + 24 + 16 * i + 4 ≤ bs.length ↔
      i < samplesWithin (bs.length - h.dfd.offset) := by
    rw [lt_samplesWithin_iff]
    omega
  have hplace (i : ℕ) : h.dfd.offset + 4 + 24 + 16 * i + 3 = h.typePlace i := by
    rw [typePlace]
    omega
  simp only [types, sampleTypes, hfile, hplace, ← List.Ico.zero_bot, List.Ico.filter_lt]
  rfl

@[simp] theorem length_types (h : Header) (bs : Bytes) :
    (h.types bs).length = h.readSamples bs := by
  rw [types_eq, List.length_map, List.length_range]

theorem lt_of_mem_types {type : ℕ} (htype : type ∈ h.types bs) : type < 16 := by
  rw [types_eq] at htype
  obtain ⟨i, -, rfl⟩ := List.mem_map.1 htype
  exact Nat.mod_lt _ (by decide)

theorem getElem?_types (hi : i < h.readSamples bs) :
    (h.types bs)[i]? = some (byteAt bs (h.typePlace i) % 16) := by
  rw [types_eq, List.getElem?_map, List.getElem?_range hi, Option.map_some]

theorem typePlace_lt (hi : i < h.readSamples bs) : h.typePlace i < bs.length := by
  have hfile := lt_samplesWithin_iff.1 (lt_min_iff.1 hi).2
  rw [typePlace]
  omega

/-- The section has the types of the samples that are held in it, and no others. -/
theorem typePlace_lt_iff : h.typePlace i < h.dfd.offset + h.dfd.length ↔ i < h.heldSamples := by
  rw [heldSamples, lt_samplesWithin_iff, typePlace]
  omega

/-- A block that ends in the section has all its samples there. -/
theorem readSamples_le_heldSamples (hsize : 4 + h.blockSize bs ≤ h.dfd.length) :
    h.readSamples bs ≤ h.heldSamples := by
  refine (min_le_left _ _).trans ?_
  rw [heldSamples, samplesWithin]
  omega

end Header

/-! ### Files that agree on the section -/

namespace Section.Agrees

open Header

theorem byteAt_eq (hcs : h.dfd.Agrees bs cs) (hstart : h.dfd.offset ≤ place)
    (hstop : place < h.dfd.offset + h.dfd.length) : byteAt cs place = byteAt bs place :=
  Bytes.natAt_congr fun _ _ => hcs.bytes _ (by omega) (by omega)

theorem undescribed_iff (hcs : h.dfd.Agrees bs cs) : h.Undescribed cs ↔ h.Undescribed bs := by
  rw [Undescribed, Undescribed, hcs.length]

theorem colourModel_eq (hcs : h.dfd.Agrees bs cs) (hbs : ¬h.Undescribed bs) :
    h.colourModel cs = h.colourModel bs := by
  rw [Undescribed, not_or] at hbs
  exact hcs.byteAt_eq (by omega) (by omega)

theorem readSamples_eq (hcs : h.dfd.Agrees bs cs) (hbs : ¬h.Undescribed bs) :
    h.readSamples cs = h.readSamples bs := by
  rw [Undescribed, not_or] at hbs
  have hsize : h.blockSize cs = h.blockSize bs :=
    Bytes.natAt_congr fun j hj => hcs.bytes _ (by omega) (by omega)
  rw [readSamples, readSamples, hsize, hcs.length]

theorem getElem?_types_eq (hcs : h.dfd.Agrees bs cs) (hbs : ¬h.Undescribed bs)
    (hi : i < h.heldSamples) : (h.types cs)[i]? = (h.types bs)[i]? := by
  have hread := hcs.readSamples_eq hbs
  by_cases hmany : i < h.readSamples bs
  · have hstart : h.dfd.offset ≤ h.typePlace i := by
      rw [typePlace]
      omega
    rw [getElem?_types hmany, getElem?_types (hread ▸ hmany),
      hcs.byteAt_eq hstart (typePlace_lt_iff.2 hi)]
  · rw [List.getElem?_eq_none, List.getElem?_eq_none]
    · rw [length_types]
      exact not_lt.1 hmany
    · rw [length_types, hread]
      exact not_lt.1 hmany

end Section.Agrees

/-! ### Samples behind the section -/

namespace Header

/-- Nothing but the section of the descriptor decides the codec and the channels of a file. -/
def SectionDecides (h : Header) (bs : Bytes) : Prop :=
  ∀ cs, h.dfd.Agrees bs cs → basisChannels cs h = basisChannels bs h

/-- Types that the samples of a file may have without another byte in its section. -/
structure Possible (h : Header) (bs : Bytes) (types : List ℕ) : Prop where
  length : types.length = h.readSamples bs
  small : ∀ type ∈ types, type < 16
  held : ∀ i < h.heldSamples, types[i]? = (h.types bs)[i]?

/-- The file with the given types in its samples, as far as they do not lie in the section. -/
def withTypes (h : Header) (types : List ℕ) (bs : Bytes) : Bytes :=
  bs.mapIdx fun place b =>
    if h.dfd.offset ≤ place ∧ place < h.dfd.offset + h.dfd.length then b
    else UInt8.ofNat (types.getD ((place - (h.dfd.offset + 31)) / 16) 0)

theorem agrees_withTypes (h : Header) (types : List ℕ) (bs : Bytes) :
    h.dfd.Agrees bs (h.withTypes types bs) where
  length := List.length_mapIdx
  bytes place hstart hstop := by
    rw [withTypes, List.getElem?_mapIdx]
    simp [hstart, hstop]

theorem byteAt_of_getElem? {b : UInt8} (hb : bs[place]? = some b) : byteAt bs place = b.toNat := by
  obtain ⟨hplace, rfl⟩ := List.getElem?_eq_some_iff.1 hb
  rw [byteAt, Bytes.natAt, List.drop_eq_getElem_cons hplace, List.take_succ_cons, List.take_zero,
    Bytes.toNatLE, Bytes.toNatLE, Nat.mul_zero, Nat.add_zero]

/-- Behind the section the samples have the types that they are given. -/
theorem byteAt_withTypes {types : List ℕ} {type : ℕ} (hi : i < h.readSamples bs)
    (houtside : ¬i < h.heldSamples) (htype : types[i]? = some type) (hsmall : type < 16) :
    byteAt (h.withTypes types bs) (h.typePlace i) = type := by
  have hplace := typePlace_lt hi
  have hindex : (h.typePlace i - (h.dfd.offset + 31)) / 16 = i := by
    rw [typePlace]
    omega
  have hbyte : (h.withTypes types bs)[h.typePlace i]? = some (UInt8.ofNat type) := by
    rw [withTypes, List.getElem?_mapIdx, List.getElem?_eq_getElem hplace, Option.map_some,
      if_neg fun hinside => houtside (typePlace_lt_iff.1 hinside.2), hindex,
      List.getD_eq_getElem?_getD, htype, Option.getD_some]
  rw [byteAt_of_getElem? hbyte, UInt8.toNat_ofNat', Nat.mod_eq_of_lt (by omega)]

theorem types_withTypes {types : List ℕ} (hbs : ¬h.Undescribed bs)
    (htypes : h.Possible bs types) :
    h.types (h.withTypes types bs) = types := by
  have hcs := agrees_withTypes h types bs
  have hread := hcs.readSamples_eq hbs
  apply List.ext_getElem?'
  intro i hi
  rw [length_types, hread, htypes.length, max_self] at hi
  by_cases hheld : i < h.heldSamples
  · rw [hcs.getElem?_types_eq hbs hheld, htypes.held i hheld]
  · have hlength : i < types.length := htypes.length ▸ hi
    have hsmall := htypes.small _ (List.getElem_mem hlength)
    rw [getElem?_types (hread ▸ hi),
      byteAt_withTypes hi hheld (List.getElem?_eq_getElem hlength) hsmall,
      Nat.mod_eq_of_lt hsmall, List.getElem?_eq_getElem hlength]

theorem possible_types (hcs : h.dfd.Agrees bs cs) (hbs : ¬h.Undescribed bs) :
    h.Possible bs (h.types cs) where
  length := (length_types h cs).trans (hcs.readSamples_eq hbs)
  small _ := lt_of_mem_types
  held _ hi := hcs.getElem?_types_eq hbs hi

/-- The section decides exactly if all types that are possible mean the same. -/
theorem sectionDecides_iff_possible (hbs : ¬h.Undescribed bs) :
    h.SectionDecides bs ↔ ∀ types, h.Possible bs types →
      h.meaning (h.colourModel bs) types = h.meaning (h.colourModel bs) (h.types bs) := by
  have hmeaning {cs : Bytes} (hcs : h.dfd.Agrees bs cs) :
      basisChannels cs h = h.meaning (h.colourModel bs) (h.types cs) := by
    rw [basisChannels_of_described (mt hcs.undescribed_iff.1 hbs), hcs.colourModel_eq hbs]
  constructor
  · intro hdecides types htypes
    have hcs := agrees_withTypes h types bs
    have hsame := hdecides _ hcs
    rwa [hmeaning hcs, types_withTypes hbs htypes, basisChannels_of_described hbs] at hsame
  · intro hall cs hcs
    rw [hmeaning hcs, basisChannels_of_described hbs]
    exact hall _ (possible_types hcs hbs)

/-! ### Where the section decides -/

theorem meaning_of_other {model : ℕ} (hetc1s : model ≠ 163) (huastc : model ≠ 166)
    (types : List ℕ) : h.meaning model types = (h.defaultCodec, .rgba) := by
  unfold meaning
  split
  · exact absurd rfl hetc1s
  · exact absurd rfl huastc
  · rfl

/-- More than two samples are those of no other channels in ETC1S. -/
theorem etc1sChannels_of_many {types : List ℕ} (hmany : 3 ≤ types.length) :
    etc1sChannels types = .rgba := by
  match types with
  | _ :: _ :: _ :: _ => simp [etc1sChannels]

theorem etc1sChannels_of_pair {types : List ℕ} (htwo : types.length = 2)
    (hfirst : types[0]? ≠ some 3) : etc1sChannels types = .rgba := by
  match types with
  | [first, second] =>
      have hfirst : first ≠ 3 := fun heq => hfirst (congrArg some heq)
      simp [etc1sChannels, hfirst]

/-- The first sample is the only one that counts in UASTC. -/
theorem uastcChannels_congr {types types' : List ℕ} (hfirst : types[0]? = types'[0]?) :
    uastcChannels types = uastcChannels types' := by
  match types, types' with
  | [], [] => rfl
  | first :: _, first' :: _ =>
      obtain rfl : first = first' := Option.some.inj hfirst
      rfl

/-- The files whose section decides: without a descriptor or in another colour model the types do not
matter; in UASTC the first sample is enough, and in ETC1S more than two samples, or a first one of two
that begins no pair. In all others every sample that is read has to be held. -/
inductive Decided (h : Header) (bs : Bytes) : Prop
  | undescribed (undescribed : h.Undescribed bs)
  | other (etc1s : h.colourModel bs ≠ 163) (uastc : h.colourModel bs ≠ 166)
  | held (held : h.readSamples bs ≤ h.heldSamples)
  | first (uastc : h.colourModel bs = 166) (held : 0 < h.heldSamples)
  | many (etc1s : h.colourModel bs = 163) (many : 3 ≤ h.readSamples bs)
  | pair (etc1s : h.colourModel bs = 163) (read : h.readSamples bs = 2) (held : 0 < h.heldSamples)
      (first : (h.types bs)[0]? ≠ some 3)

theorem Possible.eq_of_held {types : List ℕ} (htypes : h.Possible bs types)
    (hheld : h.readSamples bs ≤ h.heldSamples) : types = h.types bs := by
  apply List.ext_getElem?'
  intro i hi
  rw [htypes.length, length_types, max_self] at hi
  exact htypes.held i (hi.trans_le hheld)

theorem Decided.meaning_eq {types : List ℕ} (hdecided : h.Decided bs) (hbs : ¬h.Undescribed bs)
    (htypes : h.Possible bs types) :
    h.meaning (h.colourModel bs) types = h.meaning (h.colourModel bs) (h.types bs) := by
  cases hdecided with
  | undescribed hundescribed => exact absurd hundescribed hbs
  | other hetc1s huastc => rw [meaning_of_other hetc1s huastc, meaning_of_other hetc1s huastc]
  | held hheld => rw [htypes.eq_of_held hheld]
  | first huastc hheld =>
      rw [huastc, meaning, meaning, uastcChannels_congr (htypes.held 0 hheld)]
  | many hetc1s hmany =>
      rw [hetc1s, meaning, meaning, etc1sChannels_of_many (htypes.length ▸ hmany),
        etc1sChannels_of_many (by rwa [length_types])]
  | pair hetc1s hread hheld hfirst =>
      have hpossible : types[0]? ≠ some 3 := htypes.held 0 hheld ▸ hfirst
      rw [hetc1s, meaning, meaning, etc1sChannels_of_pair (htypes.length.trans hread) hpossible,
        etc1sChannels_of_pair ((length_types h bs).trans hread) hfirst]

/-- Any types are possible where the section holds no sample. -/
theorem possible_of_none_held {types : List ℕ} (hheld : h.heldSamples = 0)
    (hlength : types.length = h.readSamples bs) (hsmall : ∀ type ∈ types, type < 16) :
    h.Possible bs types :=
  ⟨hlength, hsmall, fun i hi => absurd hi (by omega)⟩

/-- The second one of two samples has any type where it is not held, as long as the first one is of
type 3 or not held either. -/
theorem possible_pair {second : ℕ} (hread : h.readSamples bs = 2) (hheld : h.heldSamples < 2)
    (hfirst : 0 < h.heldSamples → (h.types bs)[0]? = some 3) (hsmall : second < 16) :
    h.Possible bs [3, second] where
  length := hread.symm
  small := by simpa using hsmall
  held i hi := by
    obtain rfl : i = 0 := by omega
    exact (hfirst hi).symm

theorem exists_possible_of_etc1s (hetc1s : h.colourModel bs = 163) (hdecided : ¬h.Decided bs) :
    ∃ types types', h.Possible bs types ∧ h.Possible bs types' ∧
      etc1sChannels types ≠ etc1sChannels types' := by
  have hheld : h.heldSamples < h.readSamples bs := not_le.1 fun hheld => hdecided (.held hheld)
  have hfew : h.readSamples bs < 3 := not_le.1 fun hmany => hdecided (.many hetc1s hmany)
  obtain hone | htwo : h.readSamples bs = 1 ∨ h.readSamples bs = 2 := by omega
  · -- The only sample may be one of three colours or of red alone.
    have hnone : h.heldSamples = 0 := by omega
    exact ⟨[0], [3], possible_of_none_held hnone hone.symm (by simp),
      possible_of_none_held hnone hone.symm (by simp), by decide⟩
  · -- The second sample may or may not complete the pair of red and green.
    have hfirst (hsome : 0 < h.heldSamples) : (h.types bs)[0]? = some 3 := by
      by_contra hfirst
      exact hdecided (.pair hetc1s htwo hsome hfirst)
    exact ⟨[3, 4], [3, 0], possible_pair htwo (by omega) hfirst (by decide),
      possible_pair htwo (by omega) hfirst (by decide), by decide⟩

theorem exists_possible_of_uastc (huastc : h.colourModel bs = 166) (hdecided : ¬h.Decided bs) :
    ∃ types types', h.Possible bs types ∧ h.Possible bs types' ∧
      uastcChannels types ≠ uastcChannels types' := by
  have hheld : h.heldSamples < h.readSamples bs := not_le.1 fun hheld => hdecided (.held hheld)
  have hnone : h.heldSamples = 0 := by
    by_contra hsome
    exact hdecided (.first huastc (by omega))
  -- All samples may be of three colours or all of red alone.
  have hpossible {type : ℕ} (hsmall : type < 16) :
      h.Possible bs (List.replicate (h.readSamples bs) type) :=
    possible_of_none_held hnone List.length_replicate fun _ htype =>
      List.eq_of_mem_replicate htype ▸ hsmall
  refine ⟨_, _, hpossible (by decide : 0 < 16), hpossible (by decide : 4 < 16), ?_⟩
  obtain ⟨n, hn⟩ : ∃ n, h.readSamples bs = n + 1 := Nat.exists_eq_add_one.2 (by omega)
  rw [hn, List.replicate_succ, List.replicate_succ]
  exact Channels.noConfusion

theorem exists_possible_of_not_decided (hdecided : ¬h.Decided bs) :
    ∃ types types', h.Possible bs types ∧ h.Possible bs types' ∧
      h.meaning (h.colourModel bs) types ≠ h.meaning (h.colourModel bs) types' := by
  by_cases hetc1s : h.colourModel bs = 163
  · obtain ⟨types, types', htypes, htypes', hne⟩ := exists_possible_of_etc1s hetc1s hdecided
    refine ⟨types, types', htypes, htypes', fun hsame => hne ?_⟩
    rw [hetc1s] at hsame
    exact congrArg Prod.snd hsame
  · have huastc : h.colourModel bs = 166 := by
      by_contra hother
      exact hdecided (.other hetc1s hother)
    obtain ⟨types, types', htypes, htypes', hne⟩ := exists_possible_of_uastc huastc hdecided
    refine ⟨types, types', htypes, htypes', fun hsame => hne ?_⟩
    rw [huastc] at hsame
    exact congrArg Prod.snd hsame

/-- For which files the section of the descriptor alone decides the codec and the channels. It does
whenever the block of the descriptor ends in the section. -/
theorem sectionDecides_iff (bs : Bytes) (h : Header) :
    (h.SectionDecides bs ↔ h.Decided bs) ∧
      (4 + h.blockSize bs ≤ h.dfd.length → h.SectionDecides bs) := by
  have hiff : h.SectionDecides bs ↔ h.Decided bs := by
    by_cases hbs : h.Undescribed bs
    · refine iff_of_true (fun cs hcs => ?_) (.undescribed hbs)
      rw [basisChannels_of_undescribed hbs, basisChannels_of_undescribed (hcs.undescribed_iff.2 hbs)]
    · rw [sectionDecides_iff_possible hbs]
      refine ⟨fun hall => ?_, fun hdecided types htypes => hdecided.meaning_eq hbs htypes⟩
      by_contra hdecided
      obtain ⟨types, types', htypes, htypes', hne⟩ := exists_possible_of_not_decided hdecided
      exact hne ((hall types htypes).trans (hall types' htypes').symm)
  exact ⟨hiff, fun hsize => hiff.2 (.held (readSamples_le_heldSamples hsize))⟩

/-- The header of a file with one level, whose descriptor has room for one sample. -/
def oneSample : Header where
  vkFormat := 0
  typeSize := 1
  width := 4
  height := 4
  depth := 0
  layerCount := 0
  faceCount := 1
  levelCount := 1
  supercompression := 1
  dfd := ⟨104, 44⟩
  kvd := ⟨0, 0⟩
  sgd := ⟨0, 0⟩
  levels := [⟨148, 16, 0⟩]

/-- A file with this header, whose descriptor says that it has two samples. The given byte is the fourth
one of the level. -/
def twoStated (b : UInt8) : Bytes :=
  let fields : Bytes := [44, 0, 0, 0, 0, 0, 0, 0, 2, 0, 56, 0, 163]
  let sample : Bytes := [0, 0, 0, 3] ++ List.replicate 12 0
  oneSample.encode ++ fields ++ List.replicate 15 0 ++ sample ++ [0, 0, 0, b] ++ List.replicate 12 0

/-- Two files that agree on the section have different channels, by a byte of the level behind it. -/
theorem channels_of_level :
    read (twoStated 4) = .ok oneSample ∧ read (twoStated 0) = .ok oneSample ∧
      oneSample.dfd.Agrees (twoStated 4) (twoStated 0) ∧
      basisChannels (twoStated 4) oneSample = (.etc1s, .rg) ∧
      basisChannels (twoStated 0) oneSample = (.etc1s, .rgba) ∧
      ¬oneSample.SectionDecides (twoStated 4) := by
  have hreadPair : read (twoStated 4) = .ok oneSample := by decide +kernel
  have hreadOther : read (twoStated 0) = .ok oneSample := by decide +kernel
  have hpair : basisChannels (twoStated 4) oneSample = (.etc1s, .rg) := by decide +kernel
  have hother : basisChannels (twoStated 0) oneSample = (.etc1s, .rgba) := by decide +kernel
  have hagrees : oneSample.dfd.Agrees (twoStated 4) (twoStated 0) := by
    refine ⟨rfl, fun i _ hi => ?_⟩
    have hsame : (twoStated 0).take 148 = (twoStated 4).take 148 := by decide +kernel
    calc
      (twoStated 0)[i]? = ((twoStated 0).take 148)[i]? := (List.getElem?_take_of_lt hi).symm
      _ = ((twoStated 4).take 148)[i]? := by rw [hsame]
      _ = (twoStated 4)[i]? := List.getElem?_take_of_lt hi
  refine ⟨hreadPair, hreadOther, hagrees, hpair, hother, fun hdecides => ?_⟩
  have hsame := hdecides _ hagrees
  rw [hpair, hother] at hsame
  cases hsame

/-- The same file with a section that has room for both samples. -/
theorem sectionDecides_iff_widened :
    let h : Header := { oneSample with dfd := ⟨104, 60⟩ }
    4 + h.blockSize (twoStated 4) ≤ h.dfd.length ∧ h.SectionDecides (twoStated 4) ∧
      basisChannels (twoStated 4) h = (.etc1s, .rg) := by
  intro h
  have hsize : 4 + h.blockSize (twoStated 4) ≤ h.dfd.length := by decide +kernel
  have hpair : basisChannels (twoStated 4) h = (.etc1s, .rg) := by decide +kernel
  exact ⟨hsize, (sectionDecides_iff (twoStated 4) h).2 hsize, hpair⟩

end Header

end Gltf.Ktx2
