import Gltf.Ktx2.Header
import Mathlib

/-!
Which files have a header that is read. It is the header that the fields say, and the number of its
levels is bounded by the binary digits of its largest extent.
-/

namespace Gltf.Ktx2.Header

theorem lt_bitLength_iff {i n : Nat} : i < bitLength n ↔ 2 ^ i ≤ n := by
  rw [bitLength]
  split_ifs with hn
  · subst hn
    exact iff_of_false (Nat.not_lt_zero i) (by simp)
  · rw [Nat.lt_succ_iff, Nat.le_log2 hn]

/-- The checks of reading, on the fields of the header. -/
theorem read_eq (bs : Bytes) :
    read bs =
      let h := decode bs
      let possible := bitLength (max (max h.width h.height) h.depth)
      if bs.length < fixedSize then .error .noHeader
      else if bs.take 12 ≠ identifier then .error .noIdentifier
      else if h.width = 0 then .error .zeroWidth
      else if h.faceCount ≠ 1 ∧ h.faceCount ≠ 6 then .error (.faceCount h.faceCount)
      else if 3 < h.supercompression then .error (.supercompression h.supercompression)
      else if possible < h.levelCount then
        .error (.levelCount h.levelCount possible h.width h.height)
      else if bs.length < fixedSize + levelSize * h.storedLevelCount then .error .levelIndexPastEnd
      else
        match h.levels.findIdx? fun l => bs.length < l.offset + l.length with
        | some level => .error (.levelPastEnd level)
        | none => .ok h := rfl

/-- A file that passes all the checks. -/
structure Readable (bs : Bytes) : Prop where
  long : fixedSize ≤ bs.length
  identified : bs.take 12 = identifier
  width : (decode bs).width ≠ 0
  faces : (decode bs).faceCount = 1 ∨ (decode bs).faceCount = 6
  supercompression : (decode bs).supercompression ≤ 3
  levelCount : (decode bs).levelCount ≤
    bitLength (max (max (decode bs).width (decode bs).height) (decode bs).depth)
  index : fixedSize + levelSize * (decode bs).storedLevelCount ≤ bs.length
  levels : ∀ level ∈ (decode bs).levels, level.offset + level.length ≤ bs.length

theorem read_eq_ok_iff {bs : Bytes} {h : Header} :
    read bs = .ok h ↔ Readable bs ∧ h = decode bs := by
  rw [read_eq]
  dsimp only
  constructor
  · intro hread
    split_ifs at hread with hlong hidentified hwidth hfaces hscheme hcount hindex
    split at hread
    · cases hread
    · rename_i hlevels
      cases hread
      refine ⟨⟨not_lt.1 hlong, not_not.1 hidentified, hwidth, ?_, not_lt.1 hscheme,
        not_lt.1 hcount, not_lt.1 hindex, ?_⟩, rfl⟩
      · by_contra hother
        exact hfaces (not_or.1 hother)
      · intro level hlevel
        exact not_lt.1 (of_decide_eq_false (List.findIdx?_eq_none_iff.1 hlevels level hlevel))
  · rintro ⟨⟨hlong, hidentified, hwidth, hfaces, hscheme, hcount, hindex, hlevels⟩, rfl⟩
    have hinside :
        (decode bs).levels.findIdx? (fun l => bs.length < l.offset + l.length) = none := by
      rw [List.findIdx?_eq_none_iff]
      intro level hlevel
      exact decide_eq_false (not_lt.2 (hlevels level hlevel))
    rw [if_neg (not_lt.2 hlong), if_neg (not_not.2 hidentified), if_neg hwidth,
      if_neg fun h => hfaces.elim h.1 h.2, if_neg (not_lt.2 hscheme), if_neg (not_lt.2 hcount),
      if_neg (not_lt.2 hindex), hinside]

theorem Readable.faceCount_pos {bs : Bytes} (h : Readable bs) : 0 < (decode bs).faceCount := by
  rcases h.faces with hone | hsix <;> omega

theorem length_levels_decode (bs : Bytes) :
    (decode bs).levels.length = (decode bs).storedLevelCount := by
  simp [decode, storedLevelCount]

end Gltf.Ktx2.Header
