import Gltf.Ktx2.Layout
import Gltf.Proofs.Ktx2.Header
import Mathlib

/-!
The levels of a layout. They tile the decoded buffer, the first has the size of the whole extent in
blocks, and none is larger than the one before. With blocks of a single pixel each is smaller, since
the header admits no more levels than its largest extent has binary digits.
-/

namespace Gltf

/-- A block that has an extent and holds something. -/
structure Block.Solid (b : Block) : Prop where
  width : 0 < b.width
  height : 0 < b.height
  bytes : 0 < b.bytes

theorem PixelFormat.solid_block (f : PixelFormat) : f.block.Solid := by
  cases f <;> exact ⟨by decide, by decide, by decide⟩

namespace Ktx2

/-! ### Positions -/

/-- Positions one behind the other, from an offset to a stop. -/
inductive Tiles : Nat → List MipPosition → Nat → Prop
  | nil (offset : Nat) : Tiles offset [] offset
  | cons {size stop : Nat} {rest : List MipPosition} (offset : Nat)
      (rest_tiles : Tiles (offset + size) rest stop) : Tiles offset (⟨offset, size⟩ :: rest) stop

@[simp] theorem map_size_packed (offset : Nat) (sizes : List Nat) :
    (packed offset sizes).map (·.size) = sizes := by
  induction sizes generalizing offset with
  | nil => rfl
  | cons size sizes ih => rw [packed, List.map_cons, ih]

theorem tiles_packed (offset : Nat) (sizes : List Nat) :
    Tiles offset (packed offset sizes) (offset + sizes.sum) := by
  induction sizes generalizing offset with
  | nil => exact .nil offset
  | cons size sizes ih =>
      rw [packed, List.sum_cons, ← Nat.add_assoc]
      exact .cons offset (ih (offset + size))

theorem length_packed (offset : Nat) (sizes : List Nat) :
    (packed offset sizes).length = sizes.length := by
  rw [← List.length_map, map_size_packed]

/-! ### Extents -/

theorem extentAt_eq (extent level : Nat) : extentAt extent level = max 1 (extent / 2 ^ level) := rfl

theorem extentAt_zero (extent : Nat) : extentAt extent 0 = max 1 extent := by
  rw [extentAt_eq, pow_zero, Nat.div_one]

theorem extentAt_pos (extent level : Nat) : 0 < extentAt extent level :=
  Nat.lt_of_lt_of_le Nat.one_pos (Nat.le_max_left ..)

theorem extentAt_succ (extent level : Nat) :
    extentAt extent (level + 1) = max 1 (extent / 2 ^ level / 2) := by
  rw [extentAt_eq, pow_succ, Nat.div_div_eq_div_mul]

theorem extentAt_succ_le (extent level : Nat) :
    extentAt extent (level + 1) ≤ extentAt extent level := by
  rw [extentAt_succ, extentAt_eq]
  omega

/-- An extent shrinks as long as it is longer than one. -/
theorem extentAt_succ_lt {extent level : Nat} (h : 2 ^ (level + 1) ≤ extent) :
    extentAt extent (level + 1) < extentAt extent level := by
  have hlong : 2 ≤ extent / 2 ^ level := by
    rw [Nat.le_div_iff_mul_le (Nat.two_pow_pos level), ← pow_succ']
    exact h
  rw [extentAt_succ, extentAt_eq]
  omega

/-! ### Sizes -/

theorem blocksAcross_eq_ceilDiv (extent block : Nat) :
    blocksAcross extent block = extent ⌈/⌉ block :=
  (Nat.ceilDiv_eq_add_pred_div extent block).symm

theorem blocksAcross_mono {extent extent' : Nat} (h : extent ≤ extent') (block : Nat) :
    blocksAcross extent block ≤ blocksAcross extent' block :=
  Nat.div_le_div_right (Nat.sub_le_sub_right (Nat.add_le_add_right h block) 1)

theorem blocksAcross_pos {extent block : Nat} (hextent : 0 < extent) (hblock : 0 < block) :
    0 < blocksAcross extent block :=
  Nat.div_pos (by omega) hblock

@[simp] theorem blocksAcross_one (extent : Nat) : blocksAcross extent 1 = extent := by
  simp [blocksAcross]

/-- The bytes of an extent of pixels, in every layer and face. -/
theorem sizeAt_eq (h : Header) (b : Block) (level : Nat) :
    sizeAt h b level =
      blocksAcross (extentAt h.width level) b.width *
        blocksAcross (extentAt h.height level) b.height * extentAt h.depth level *
          (b.bytes * max 1 h.layerCount * h.faceCount) := by
  rw [sizeAt, sliceSize]
  ring

theorem sizeAt_zero {h : Header} (b : Block) (hwidth : h.width ≠ 0) :
    sizeAt h b 0 = (h.width ⌈/⌉ b.width) * (max 1 h.height ⌈/⌉ b.height) * b.bytes *
      max 1 h.depth * max 1 h.layerCount * h.faceCount := by
  have hwide : max 1 h.width = h.width := Nat.max_eq_right (Nat.one_le_iff_ne_zero.2 hwidth)
  rw [sizeAt, sliceSize, extentAt_zero, extentAt_zero, extentAt_zero, hwide,
    blocksAcross_eq_ceilDiv, blocksAcross_eq_ceilDiv]

theorem sizeAt_succ_le (h : Header) (b : Block) (level : Nat) :
    sizeAt h b (level + 1) ≤ sizeAt h b level := by
  rw [sizeAt_eq, sizeAt_eq]
  refine Nat.mul_le_mul_right _ (Nat.mul_le_mul (Nat.mul_le_mul ?_ ?_) ?_)
  · exact blocksAcross_mono (extentAt_succ_le h.width level) b.width
  · exact blocksAcross_mono (extentAt_succ_le h.height level) b.height
  · exact extentAt_succ_le h.depth level

/-- Of three extents that do not grow one shrinks. -/
theorem volume_lt {w h d w' h' d' : Nat} (hw : w' ≤ w) (hh : h' ≤ h) (hd : d' ≤ d) (hw' : 0 < w')
    (hh' : 0 < h') (hd' : 0 < d') (hshrinks : w' < w ∨ h' < h ∨ d' < d) :
    w' * h' * d' < w * h * d := by
  rcases hshrinks with hlt | hlt | hlt
  · have hslice : w' * h' < w * h := Nat.mul_lt_mul_of_lt_of_le hlt hh (hh'.trans_le hh)
    exact Nat.mul_lt_mul_of_lt_of_le hslice hd (hd'.trans_le hd)
  · have hslice : w' * h' < w * h := Nat.mul_lt_mul_of_le_of_lt hw hlt (hw'.trans_le hw)
    exact Nat.mul_lt_mul_of_lt_of_le hslice hd (hd'.trans_le hd)
  · have hslice : w' * h' ≤ w * h := Nat.mul_le_mul hw hh
    exact Nat.mul_lt_mul_of_le_of_lt hslice hlt ((Nat.mul_pos hw' hh').trans_le hslice)

/-- With blocks of one pixel a level is smaller than the one before it, as long as the largest
extent has a binary digit left for it. -/
theorem sizeAt_succ_lt {h : Header} {b : Block} {level : Nat} (hwidth : b.width = 1)
    (hheight : b.height = 1) (hbytes : 0 < b.bytes) (hfaces : 0 < h.faceCount)
    (hlevel : level + 1 < Header.bitLength (max (max h.width h.height) h.depth)) :
    sizeAt h b (level + 1) < sizeAt h b level := by
  have hlayers : 0 < max 1 h.layerCount := Nat.lt_of_lt_of_le Nat.one_pos (Nat.le_max_left ..)
  rw [Header.lt_bitLength_iff, le_max_iff, le_max_iff] at hlevel
  simp only [sizeAt_eq, hwidth, hheight, blocksAcross_one]
  refine Nat.mul_lt_mul_of_pos_right (volume_lt (extentAt_succ_le ..) (extentAt_succ_le ..)
    (extentAt_succ_le ..) (extentAt_pos ..) (extentAt_pos ..) (extentAt_pos ..) ?_)
    (Nat.mul_pos (Nat.mul_pos hbytes hlayers) hfaces)
  rcases hlevel with (hlong | hlong) | hlong
  · exact .inl (extentAt_succ_lt hlong)
  · exact .inr (.inl (extentAt_succ_lt hlong))
  · exact .inr (.inr (extentAt_succ_lt hlong))

theorem sizeAt_pos {h : Header} {b : Block} (hb : b.Solid) (hfaces : 0 < h.faceCount)
    (level : Nat) : 0 < sizeAt h b level := by
  have hlayers : 0 < max 1 h.layerCount := Nat.lt_of_lt_of_le Nat.one_pos (Nat.le_max_left ..)
  have hwidth := blocksAcross_pos (extentAt_pos h.width level) hb.width
  have hheight := blocksAcross_pos (extentAt_pos h.height level) hb.height
  rw [sizeAt_eq]
  exact Nat.mul_pos (Nat.mul_pos (Nat.mul_pos hwidth hheight) (extentAt_pos ..))
    (Nat.mul_pos (Nat.mul_pos hb.bytes hlayers) hfaces)

theorem pos_of_rawPixelSize? {vkFormat size : Nat} (h : rawPixelSize? vkFormat = some size) :
    0 < size := by
  rw [rawPixelSize?.eq_def] at h
  split at h <;> simp only [Option.some.injEq, reduceCtorEq] at h <;> omega

theorem solid_of_goal? {bs : Bytes} {targets : Targets} {h : Header} {goal : Goal}
    (hgoal : goal? bs targets h = some goal) : goal.block.Solid := by
  rw [goal?] at hgoal
  split_ifs at hgoal
  · cases hgoal
    exact PixelFormat.solid_block _
  · obtain ⟨size, hsize, rfl⟩ := Option.map_eq_some_iff.1 hgoal
    exact ⟨Nat.one_pos, Nat.one_pos, pos_of_rawPixelSize? hsize⟩

/-! ### Layouts -/

/-- What a layout is made of: the header, the goal that it and the targets set, and the positions of
the levels, which are the stored ones where nothing is compressed. -/
theorem exists_of_layout {bs : Bytes} {targets : Targets} {l : Layout}
    (h : layout bs targets = .ok l) :
    ∃ goal, Header.read bs = .ok l.header ∧ goal? bs targets l.header = some goal ∧
      l.format = goal.format ∧
      l.levels =
        packed 0 ((List.range l.header.storedLevelCount).map (sizeAt l.header goal.block)) := by
  rw [layout] at h
  split at h
  · cases h
  · rename_i header hread
    split at h
    · cases h
    · rename_i goal hgoal
      rw [Goal.layout] at h
      split at h
      · cases h
      · cases h
        exact ⟨goal, hread, hgoal, rfl, rfl⟩

/-- Levels that fill the decoded buffer of a file, in blocks of a given geometry. -/
structure Layout.Fills (l : Layout) (b : Block) : Prop where
  count : l.levels.length = max 1 l.header.levelCount
  stored : l.header.levels.length = l.levels.length
  tiles : Tiles 0 l.levels l.totalSize
  positive : ∀ p ∈ l.levels, 0 < p.size
  first : l.levels.head?.map (·.size) =
    some ((l.header.width ⌈/⌉ b.width) * (max 1 l.header.height ⌈/⌉ b.height) * b.bytes *
      max 1 l.header.depth * max 1 l.header.layerCount * l.header.faceCount)
  shrinking : ∀ i p q, l.levels[i]? = some p → l.levels[i + 1]? = some q →
    q.size ≤ p.size ∧ (b.width = 1 → b.height = 1 → q.size < p.size)
  mips : 0 < l.header.levelCount → l.mips = l.levels
  noMips : l.header.levelCount = 0 → l.mips = []

/-- Positions are packed one behind the other, so the size of each is that of its level. -/
theorem size_of_getElem?_packed {size : Nat → Nat} {n i : Nat} {p : MipPosition}
    (hp : (packed 0 ((List.range n).map size))[i]? = some p) : i < n ∧ p.size = size i := by
  have hsizes := map_size_packed 0 ((List.range n).map size)
  have hi : ((List.range n).map size)[i]? = some p.size := by
    rw [← hsizes, List.getElem?_map, hp, Option.map_some]
  obtain ⟨hlt, hsize⟩ := List.getElem?_eq_some_iff.1 hi
  rw [List.length_map, List.length_range] at hlt
  refine ⟨hlt, ?_⟩
  rw [← hsize, List.getElem_map, List.getElem_range]

/-- A second level is stored only if the header counts levels, and then their number is bounded. -/
theorem sizeAt_succ_lt_of_stored {bs : Bytes} {b : Block} {level : Nat} (hb : b.Solid)
    (readable : Header.Readable bs) (hwidth : b.width = 1) (hheight : b.height = 1)
    (hlevel : level + 1 < (Header.decode bs).storedLevelCount) :
    sizeAt (Header.decode bs) b (level + 1) < sizeAt (Header.decode bs) b level := by
  have hcount : level + 1 < (Header.decode bs).levelCount := by
    rw [Header.storedLevelCount] at hlevel
    omega
  exact sizeAt_succ_lt hwidth hheight hb.bytes readable.faceCount_pos
    (hcount.trans_le readable.levelCount)

/-- The levels of a layout fill the decoded buffer in the block geometry that the header and the
targets choose. -/
theorem fills_of_layout {bs : Bytes} {targets : Targets} {l : Layout}
    (h : layout bs targets = .ok l) :
    ∃ goal, Header.read bs = .ok l.header ∧ goal? bs targets l.header = some goal ∧
      l.format = goal.format ∧ l.Fills goal.block := by
  obtain ⟨goal, hread, hgoal, hformat, hlevels⟩ := exists_of_layout h
  obtain ⟨hreadable, hheader⟩ := Header.read_eq_ok_iff.1 hread
  have hsolid := solid_of_goal? hgoal
  have hfaces : 0 < l.header.faceCount := hheader ▸ hreadable.faceCount_pos
  have hlength : l.levels.length = max 1 l.header.levelCount := by
    rw [hlevels, length_packed, List.length_map, List.length_range]
    rfl
  have htotal : l.totalSize =
      ((List.range l.header.storedLevelCount).map (sizeAt l.header goal.block)).sum := by
    rw [Layout.totalSize, hlevels, map_size_packed]
    rfl
  have hsize {i : Nat} {p : MipPosition} (hp : l.levels[i]? = some p) :
      i < l.header.storedLevelCount ∧ p.size = sizeAt l.header goal.block i :=
    size_of_getElem?_packed (hlevels ▸ hp)
  refine ⟨goal, hread, hgoal, hformat, hlength, ?_, ?_, ?_, ?_, ?_, ?_, ?_⟩
  · rw [hlength, hheader, Header.length_levels_decode]
    rfl
  · rw [htotal, hlevels]
    simpa using tiles_packed 0
      ((List.range l.header.storedLevelCount).map (sizeAt l.header goal.block))
  · intro p hp
    obtain ⟨i, hi⟩ := List.mem_iff_getElem?.1 hp
    rw [(hsize hi).2]
    exact sizeAt_pos hsolid hfaces i
  · have hnonempty : 0 < l.levels.length := by omega
    have hfirst := List.getElem?_eq_getElem hnonempty
    rw [List.head?_eq_getElem?, hfirst, Option.map_some, (hsize hfirst).2,
      sizeAt_zero goal.block (by rw [hheader]; exact hreadable.width)]
  · intro i p q hp hq
    obtain ⟨-, hpsize⟩ := hsize hp
    obtain ⟨hlevel, hqsize⟩ := hsize hq
    rw [hpsize, hqsize]
    refine ⟨sizeAt_succ_le l.header goal.block i, fun hwidth hheight => ?_⟩
    rw [hheader] at hlevel ⊢
    exact sizeAt_succ_lt_of_stored hsolid hreadable hwidth hheight hlevel
  · intro hcount
    rw [Layout.mips, if_pos hcount]
  · intro hcount
    rw [Layout.mips, hcount, if_neg (Nat.lt_irrefl 0)]

/-- A volume of a single pixel across, whose three levels shrink along its depth. -/
theorem fills_of_layout_volume :
    let header : Header :=
      { vkFormat := 16, typeSize := 1, width := 1, height := 0, depth := 4, layerCount := 0
        faceCount := 6, levelCount := 3, supercompression := 0
        dfd := ⟨0, 0⟩, kvd := ⟨0, 0⟩, sgd := ⟨0, 0⟩
        levels := [⟨0, 48, 0⟩, ⟨0, 24, 0⟩, ⟨0, 12, 0⟩] }
    let l : Layout := ⟨header, .none, 2, [⟨0, 48⟩, ⟨48, 24⟩, ⟨72, 12⟩], none⟩
    layout header.encode {} = .ok l ∧
      ∃ goal, Header.read header.encode = .ok l.header ∧
        goal? header.encode {} l.header = some goal ∧ l.format = goal.format ∧
        l.Fills goal.block := by
  intro header l
  have h : layout header.encode {} = .ok l := by decide +revert +kernel
  exact ⟨h, fills_of_layout h⟩

end Ktx2

end Gltf
