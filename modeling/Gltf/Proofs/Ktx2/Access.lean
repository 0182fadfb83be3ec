import Gltf.Ktx2.Layout
import Gltf.Proofs.Ktx2.Header
import Mathlib

/-!
KTX2 files read with every access checked: a number is taken only where all its bytes are in the
file, and a reading that wants others breaks off. None does: whatever offsets and counts a file
states, no byte outside of it is asked for.
-/

namespace Gltf

namespace Bytes

/-- The number stored in `width` bytes from `offset` on, if all of them are there. -/
def natAt? (bs : Bytes) (offset width : Nat) : Option Nat :=
  if offset + width ≤ bs.length then some (natAt bs offset width) else none

theorem natAt?_of_le {bs : Bytes} {offset width : Nat} (h : offset + width ≤ bs.length) :
    natAt? bs offset width = some (natAt bs offset width) := if_pos h

theorem toNatLE_append (bs cs : Bytes) :
    toNatLE (bs ++ cs) = toNatLE bs + 256 ^ bs.length * toNatLE cs := by
  induction bs with
  | nil => simp [toNatLE]
  | cons b bs ih =>
      simp only [List.cons_append, toNatLE, ih, List.length_cons, pow_succ]
      ring

theorem toNatLE_lt (bs : Bytes) : toNatLE bs < 256 ^ bs.length := by
  induction bs with
  | nil => simp [toNatLE]
  | cons b bs ih =>
      have hb : b.toNat < 256 := b.toNat_lt
      simp only [toNatLE, List.length_cons, pow_succ]
      omega

/-- The high bytes of a number are those behind the low ones. -/
theorem natAt_div {bs : Bytes} {offset : Nat} (low high : Nat) (h : offset + low ≤ bs.length) :
    natAt bs offset (low + high) / 256 ^ low = natAt bs (offset + low) high := by
  have hlength : ((bs.drop offset).take low).length = low := by simp; omega
  have hsplit : natAt bs offset (low + high) =
      natAt bs offset low + 256 ^ low * natAt bs (offset + low) high := by
    rw [natAt, List.take_add, toNatLE_append, hlength, List.drop_drop]
    rfl
  have hlow : natAt bs offset low < 256 ^ low := by
    simpa [natAt, hlength] using toNatLE_lt ((bs.drop offset).take low)
  rw [hsplit, Nat.add_mul_div_left _ _ (by positivity), Nat.div_eq_of_lt hlow, Nat.zero_add]

end Bytes

theorem mapM_eq_some_map {α β : Type} {f : α → Option β} {g : α → β} {xs : List α}
    (h : ∀ x ∈ xs, f x = some (g x)) : xs.mapM f = some (xs.map g) := by
  induction xs with
  | nil => rfl
  | cons x xs ih =>
      have hx : f x = some (g x) := h x List.mem_cons_self
      have hxs : xs.mapM f = some (xs.map g) := ih fun y hy => h y (List.mem_cons_of_mem _ hy)
      simp [List.mapM_cons, hx, hxs]

namespace Ktx2

/-! ### The header -/

namespace Header

def readLevel? (bs : Bytes) (i : Nat) : Option Level := do
  let offset ← Bytes.natAt? bs (fixedSize + levelSize * i) 8
  let length ← Bytes.natAt? bs (fixedSize + levelSize * i + 8) 8
  let uncompressedLength ← Bytes.natAt? bs (fixedSize + levelSize * i + 16) 8
  some ⟨offset, length, uncompressedLength⟩

/-- The fields before the levels. -/
def readFixed? (bs : Bytes) : Option Header := do
  let word (i : Nat) := Bytes.natAt? bs (12 + 4 * i) 4
  let vkFormat ← word 0
  let typeSize ← word 1
  let width ← word 2
  let height ← word 3
  let depth ← word 4
  let layerCount ← word 5
  let faceCount ← word 6
  let levelCount ← word 7
  let supercompression ← word 8
  let dfd : Section := ⟨← word 9, ← word 10⟩
  let kvd : Section := ⟨← word 11, ← word 12⟩
  let sgd : Section := ⟨← Bytes.natAt? bs 64 8, ← Bytes.natAt? bs 72 8⟩
  some { vkFormat, typeSize, width, height, depth, layerCount, faceCount, levelCount,
         supercompression, dfd, kvd, sgd, levels := [] }

/-- As `read`, breaking off at the first access outside of the file. -/
def read? (bs : Bytes) : Option (Except Problem Header) :=
  if bs.length < fixedSize then some (.error .noHeader)
  else do
    let h ← readFixed? bs
    let possible := bitLength (max (max h.width h.height) h.depth)
    if bs.take 12 ≠ identifier then some (.error .noIdentifier)
    else if h.width = 0 then some (.error .zeroWidth)
    else if h.faceCount ≠ 1 ∧ h.faceCount ≠ 6 then some (.error (.faceCount h.faceCount))
    else if 3 < h.supercompression then some (.error (.supercompression h.supercompression))
    else if possible < h.levelCount then
      some (.error (.levelCount h.levelCount possible h.width h.height))
    else if bs.length < fixedSize + levelSize * h.storedLevelCount then
      some (.error .levelIndexPastEnd)
    else do
      let levels ← (List.range h.storedLevelCount).mapM (readLevel? bs)
      match levels.findIdx? fun l => bs.length < l.offset + l.length with
      | some level => some (.error (.levelPastEnd level))
      | none => some (.ok { h with levels })

theorem readLevel?_eq {bs : Bytes} {i : Nat} (h : fixedSize + levelSize * (i + 1) ≤ bs.length) :
    readLevel? bs i = some (readLevel bs i) := by
  simp only [fixedSize, levelSize] at h
  simp (disch := omega) only [readLevel?, readLevel, fixedSize, levelSize, Bytes.natAt?_of_le,
    Option.bind_eq_bind, Option.bind_some]

theorem readFixed?_eq {bs : Bytes} (h : fixedSize ≤ bs.length) :
    readFixed? bs = some { decode bs with levels := [] } := by
  simp only [fixedSize] at h
  simp (disch := omega) only [readFixed?, Bytes.natAt?_of_le, Option.bind_eq_bind,
    Option.bind_some]
  rfl

@[simp] theorem storedLevelCount_with (h : Header) (levels : List Level) :
    { h with levels }.storedLevelCount = h.storedLevelCount := rfl

/-- Reading stays inside the file. -/
theorem read?_eq (bs : Bytes) : read? bs = some (read bs) := by
  rw [read?, read_eq]
  dsimp only
  by_cases hlong : bs.length < fixedSize
  · simp [hlong]
  rw [if_neg hlong, if_neg hlong, readFixed?_eq (not_lt.1 hlong)]
  simp only [Option.bind_eq_bind, Option.bind_some, storedLevelCount_with]
  split_ifs with hidentified hwidth hfaces hscheme hcount hindex
  · rfl
  · rfl
  · rfl
  · rfl
  · rfl
  · exact if_pos hindex
  · have hlevels : (List.range (decode bs).storedLevelCount).mapM (readLevel? bs) =
        some (decode bs).levels := by
      refine mapM_eq_some_map fun i hi => readLevel?_eq ?_
      have hi : i < (decode bs).storedLevelCount := List.mem_range.1 hi
      simp only [levelSize] at hindex ⊢
      omega
    refine (if_neg hindex).trans ?_
    rw [hlevels, Option.bind_some]
    cases (decode bs).levels.findIdx? fun l => bs.length < l.offset + l.length <;> rfl

end Header

/-! ### Channels -/

/-- As `sampleTypes`, from a block of the given size. -/
def sampleTypes? (bs : Bytes) (block blockSize : Nat) : Option (List Nat) :=
  let inside := (List.range ((blockSize - 24) / 16)).filter fun i =>
    block + 24 + 16 * i + 4 ≤ bs.length
  inside.mapM fun i => do
    let type ← Bytes.natAt? bs (block + 24 + 16 * i + 3) 1
    some (type % 16)

/-- As `basisChannels`, breaking off at the first access outside of the file. The size of the block
is the upper half of a word. -/
def basisChannels? (bs : Bytes) (h : Header) : Option (Codec × Channels) :=
  let block := h.dfd.offset + 4
  if h.dfd.length < 28 ∨ bs.length < block + 24 then some (h.defaultCodec, .rgba)
  else do
    let word ← Bytes.natAt? bs (block + 4) 4
    let model ← Bytes.natAt? bs (block + 8) 1
    let types ← sampleTypes? bs block (word / 0x10000)
    some <|
      match model with
      | 163 => (.etc1s, etc1sChannels types)
      | 166 => (.uastc, uastcChannels types)
      | _ => (h.defaultCodec, .rgba)

theorem sampleTypes?_eq (bs : Bytes) (block : Nat) :
    sampleTypes? bs block (Bytes.natAt bs (block + 6) 2) = some (sampleTypes bs block) := by
  refine mapM_eq_some_map fun i hi => ?_
  have hinside : block + 24 + 16 * i + 4 ≤ bs.length := by simpa using (List.mem_filter.1 hi).2
  rw [Bytes.natAt?_of_le (by omega)]
  rfl

/-- Finding the channels stays inside the file, whatever the header says. -/
theorem basisChannels?_eq (bs : Bytes) (h : Header) :
    basisChannels? bs h = some (basisChannels bs h) := by
  rw [basisChannels?, basisChannels]
  split_ifs with habsent
  · rfl
  · have hlong : h.dfd.offset + 4 + 24 ≤ bs.length := not_lt.1 (not_or.1 habsent).2
    have hsize : Bytes.natAt bs (h.dfd.offset + 4 + 4) 4 / 0x10000 =
        Bytes.natAt bs (h.dfd.offset + 4 + 6) 2 :=
      Bytes.natAt_div 2 2 (by omega)
    rw [Bytes.natAt?_of_le (by omega), Bytes.natAt?_of_le (by omega)]
    simp only [Option.bind_eq_bind, Option.bind_some, hsize, sampleTypes?_eq]
    rfl

/-! ### Layouts -/

/-- As `layout`, breaking off at the first access outside of the file. -/
def layout? (bs : Bytes) (targets : Targets) : Option (Except Problem Layout) := do
  match ← Header.read? bs with
  | .error problem => some (.error problem)
  | .ok h => do
      let goal ←
        if h.isBasis then do
          let (codec, channels) ← basisChannels? bs h
          let format := targets.target codec channels
          some (some ⟨format, format.block, some codec⟩)
        else some ((rawPixelSize? h.vkFormat).map fun size => ⟨.none, ⟨1, 1, size, size⟩, none⟩)
      match goal with
      | none => some (.error (.unsupportedFormat h.vkFormat))
      | some goal => some (Goal.layout goal h)

/-- Laying out a file stays inside it. -/
theorem layout?_eq (bs : Bytes) (targets : Targets) :
    layout? bs targets = some (layout bs targets) := by
  rw [layout?, layout, Header.read?_eq, Option.bind_eq_bind, Option.bind_some]
  cases Header.read bs with
  | error problem => rfl
  | ok h =>
      simp only [basisChannels?_eq, goal?, Option.bind_eq_bind, Option.bind_some]
      by_cases hbasis : h.isBasis
      · simp [hbasis]
      · simp only [hbasis, Bool.false_eq_true, if_false]
        cases rawPixelSize? h.vkFormat <;> rfl

end Ktx2

end Gltf
