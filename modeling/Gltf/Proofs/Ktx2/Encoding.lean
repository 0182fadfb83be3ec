import Gltf.Proofs.Ktx2.Access
import Mathlib

/-!
The header of a KTX2 file, byte for byte. Which files have a header that is read is said once more, on
the bytes where the format puts each field. The header that is read is then the one header with fields
of the right widths that is written as the first bytes of the file.
-/

namespace Gltf

section
variable {α : Type} {piece : α → Bytes} {size : ℕ} (hsize : 0 < size)
  (hlength : ∀ a, (piece a).length = size)
include hsize hlength

theorem flatMap_cons_ne_nil (a : α) (as : List α) : (a :: as).flatMap piece ≠ [] := by
  rw [List.flatMap_cons]
  apply List.append_ne_nil_of_left_ne_nil
  apply List.ne_nil_of_length_pos
  rwa [hlength]

/-- Pieces of one size that are told apart are told apart also one behind the other. -/
theorem flatMap_inj {as bs : List α}
    (hinj : ∀ a ∈ as, ∀ b ∈ bs, piece a = piece b → a = b) (h : as.flatMap piece = bs.flatMap piece) :
    as = bs := by
  induction as generalizing bs with
  | nil =>
      cases bs with
      | nil => rfl
      | cons b bs => exact absurd h.symm (flatMap_cons_ne_nil hsize hlength b bs)
  | cons a as ih =>
      cases bs with
      | nil => exact absurd h (flatMap_cons_ne_nil hsize hlength a as)
      | cons b bs =>
          rw [List.flatMap_cons, List.flatMap_cons] at h
          obtain ⟨hhead, htail⟩ := List.append_inj h ((hlength a).trans (hlength b).symm)
          have hab := hinj a List.mem_cons_self b List.mem_cons_self hhead
          have hrest := ih (fun a ha b hb => hinj a (List.mem_cons_of_mem _ ha) b
            (List.mem_cons_of_mem _ hb)) htail
          rw [hab, hrest]

end

namespace Bytes

/-- A number is written with the bytes that it was read from. -/
theorem ofNatLE_toNatLE (bs : Bytes) : ofNatLE bs.length (toNatLE bs) = bs := by
  induction bs with
  | nil => rfl
  | cons b bs ih =>
      have hb : b.toNat < 256 := b.toNat_lt
      have hlow : UInt8.ofNat (b.toNat + 256 * toNatLE bs) = b := by
        apply UInt8.toNat_inj.1
        rw [UInt8.toNat_ofNat']
        omega
      have hhigh : (b.toNat + 256 * toNatLE bs) / 256 = toNatLE bs := by omega
      rw [List.length_cons, toNatLE, ofNatLE, hlow, hhigh, ih]

theorem ofNatLE_natAt {bs : Bytes} {offset width : ℕ} (h : offset + width ≤ bs.length) :
    ofNatLE width (natAt bs offset width) = (bs.drop offset).take width := by
  have hwidth : ((bs.drop offset).take width).length = width := by
    rw [List.length_take, List.length_drop]
    omega
  have hwritten := ofNatLE_toNatLE ((bs.drop offset).take width)
  rwa [hwidth] at hwritten

/-- Numbers below the bound of their width are told apart by their bytes. -/
theorem ofNatLE_inj {width m n : ℕ} (hm : m < 256 ^ width) (hn : n < 256 ^ width)
    (h : ofNatLE width m = ofNatLE width n) : m = n := by
  have hvalue := congrArg toNatLE h
  rwa [toNatLE_ofNatLE, toNatLE_ofNatLE, Nat.pow_eq, Nat.mod_eq_of_lt hm, Nat.mod_eq_of_lt hn]
    at hvalue

theorem natAt_lt (bs : Bytes) (offset width : ℕ) : natAt bs offset width < 256 ^ width := by
  refine (toNatLE_lt _).trans_le (Nat.pow_le_pow_right (by decide) ?_)
  rw [List.length_take]
  exact Nat.min_le_left _ _

/-- Pieces of one size, cut one behind the other. -/
theorem take_append_flatMap_range {bs : Bytes} {piece : ℕ → Bytes} (start size : ℕ) {n : ℕ}
    (h : ∀ i < n, piece i = (bs.drop (start + size * i)).take size) :
    bs.take start ++ (List.range n).flatMap piece = bs.take (start + size * n) := by
  induction n with
  | zero => simp
  | succ n ih =>
      have hbefore := ih fun i hi => h i (Nat.lt_succ_of_lt hi)
      rw [List.range_succ, List.flatMap_append, ← List.append_assoc, hbefore,
        List.flatMap_singleton, h n (Nat.lt_succ_self n), ← List.take_add, Nat.mul_succ,
        Nat.add_assoc]

end Bytes

namespace Ktx2

/-- The bytes of an entry in the index of levels. -/
def Level.encode (l : Level) : Bytes :=
  Bytes.ofNatLE 8 l.offset ++ Bytes.ofNatLE 8 l.length ++ Bytes.ofNatLE 8 l.uncompressedLength

namespace Header

/-! ### The format -/

/-- What the format asks of a file, field by field at the places where they lie. -/
structure WellFormed (bs : Bytes) : Prop where
  long : 80 ≤ bs.length
  identified : identifier <+: bs
  width : Bytes.natAt bs 20 4 ≠ 0
  faceCount : Bytes.natAt bs 36 4 = 1 ∨ Bytes.natAt bs 36 4 = 6
  supercompression : Bytes.natAt bs 44 4 ≤ 3
  /-- No more levels than the largest extent has binary digits. -/
  levelCount : Bytes.natAt bs 40 4 ≤
    Nat.size (max (max (Bytes.natAt bs 20 4) (Bytes.natAt bs 24 4)) (Bytes.natAt bs 28 4))
  index : 80 + 24 * max 1 (Bytes.natAt bs 40 4) ≤ bs.length
  levels : ∀ i < max 1 (Bytes.natAt bs 40 4),
    Bytes.natAt bs (80 + 24 * i) 8 + Bytes.natAt bs (80 + 24 * i + 8) 8 ≤ bs.length

theorem bitLength_eq_size (n : ℕ) : bitLength n = Nat.size n := by
  refine eq_of_forall_lt_iff fun i => ?_
  rw [lt_bitLength_iff, Nat.lt_size]

theorem readable_iff_wellFormed (bs : Bytes) : Readable bs ↔ WellFormed bs := by
  have hlevels : (∀ level ∈ (decode bs).levels, level.offset + level.length ≤ bs.length) ↔
      ∀ i < max 1 (Bytes.natAt bs 40 4),
        Bytes.natAt bs (80 + 24 * i) 8 + Bytes.natAt bs (80 + 24 * i + 8) 8 ≤ bs.length := by
    simp only [decode, List.forall_mem_map, List.mem_range]
    rfl
  have hidentified : bs.take 12 = identifier ↔ identifier <+: bs := by
    rw [List.prefix_iff_eq_take]
    exact eq_comm
  constructor
  · rintro ⟨long, identified, width, faces, supercompression, levelCount, index, levels⟩
    rw [bitLength_eq_size] at levelCount
    exact ⟨long, hidentified.1 identified, width, faces, supercompression, levelCount, index,
      hlevels.1 levels⟩
  · rintro ⟨long, identified, width, faces, supercompression, levelCount, index, levels⟩
    rw [← bitLength_eq_size] at levelCount
    exact ⟨long, hidentified.2 identified, width, faces, supercompression, levelCount, index,
      hlevels.2 levels⟩

/-! ### Writing what was read -/

/-- The fields that are written in four bytes. -/
def words (h : Header) : List ℕ :=
  [h.vkFormat, h.typeSize, h.width, h.height, h.depth, h.layerCount, h.faceCount, h.levelCount,
    h.supercompression, h.dfd.offset, h.dfd.length, h.kvd.offset, h.kvd.length]

/-- The bytes before the index of levels. -/
def encodeFixed (h : Header) : Bytes :=
  identifier ++ h.words.flatMap (Bytes.ofNatLE 4) ++ Bytes.ofNatLE 8 h.sgd.offset ++
    Bytes.ofNatLE 8 h.sgd.length

theorem encode_eq (h : Header) : h.encode = h.encodeFixed ++ h.levels.flatMap Level.encode := rfl

theorem words_decode (bs : Bytes) :
    (decode bs).words = (List.range 13).map fun i => Bytes.natAt bs (12 + 4 * i) 4 := rfl

theorem length_encodeFixed (h : Header) : h.encodeFixed.length = 80 := by
  simp [encodeFixed, words, identifier]

theorem encodeFixed_decode {bs : Bytes} (long : 80 ≤ bs.length)
    (identified : identifier <+: bs) : (decode bs).encodeFixed = bs.take 80 := by
  have hidentifier : identifier = bs.take 12 := List.prefix_iff_eq_take.1 identified
  have hwords : bs.take 12 ++ (decode bs).words.flatMap (Bytes.ofNatLE 4) = bs.take 64 := by
    rw [words_decode, List.flatMap_map]
    exact Bytes.take_append_flatMap_range 12 4 fun i hi => Bytes.ofNatLE_natAt (by omega)
  have hoffset : bs.take 64 ++ Bytes.ofNatLE 8 (decode bs).sgd.offset = bs.take 72 := by
    rw [show (decode bs).sgd.offset = Bytes.natAt bs 64 8 from rfl,
      Bytes.ofNatLE_natAt (by omega), ← List.take_add]
  have hlength : bs.take 72 ++ Bytes.ofNatLE 8 (decode bs).sgd.length = bs.take 80 := by
    rw [show (decode bs).sgd.length = Bytes.natAt bs 72 8 from rfl,
      Bytes.ofNatLE_natAt (by omega), ← List.take_add]
  rw [encodeFixed, hidentifier, hwords, hoffset, hlength]

theorem encode_readLevel {bs : Bytes} {i : ℕ} (h : 80 + 24 * (i + 1) ≤ bs.length) :
    (readLevel bs i).encode = (bs.drop (80 + 24 * i)).take 24 := by
  show Bytes.ofNatLE 8 (Bytes.natAt bs (80 + 24 * i) 8) ++
      Bytes.ofNatLE 8 (Bytes.natAt bs (80 + 24 * i + 8) 8) ++
      Bytes.ofNatLE 8 (Bytes.natAt bs (80 + 24 * i + 16) 8) = _
  rw [Bytes.ofNatLE_natAt (by omega), Bytes.ofNatLE_natAt (by omega),
    Bytes.ofNatLE_natAt (by omega)]
  generalize 80 + 24 * i = start
  rw [← List.drop_drop, ← List.take_add, ← List.drop_drop, ← List.take_add]

theorem encode_decode {bs : Bytes} (h : WellFormed bs) :
    (decode bs).encode = bs.take (80 + 24 * max 1 (decode bs).levelCount) := by
  have hlevels : (decode bs).levels = (List.range (max 1 (decode bs).levelCount)).map (readLevel bs) :=
    rfl
  have hindex : 80 + 24 * max 1 (decode bs).levelCount ≤ bs.length := h.index
  rw [encode_eq, encodeFixed_decode h.long h.identified, hlevels, List.flatMap_map]
  refine Bytes.take_append_flatMap_range 80 24 fun i hi => encode_readLevel ?_
  omega

/-! ### Headers that are told apart -/

/-- A header whose fields fit the widths in which they are written. -/
structure Narrow (h : Header) : Prop where
  words : ∀ word ∈ h.words, word < 256 ^ 4
  sgdOffset : h.sgd.offset < 256 ^ 8
  sgdLength : h.sgd.length < 256 ^ 8
  levels : ∀ l ∈ h.levels,
    l.offset < 256 ^ 8 ∧ l.length < 256 ^ 8 ∧ l.uncompressedLength < 256 ^ 8

theorem narrow_decode (bs : Bytes) : (decode bs).Narrow where
  words := by
    rw [words_decode, List.forall_mem_map]
    exact fun i _ => Bytes.natAt_lt bs _ 4
  sgdOffset := Bytes.natAt_lt bs 64 8
  sgdLength := Bytes.natAt_lt bs 72 8
  levels := by
    have hentry (i : ℕ) : (readLevel bs i).offset < 256 ^ 8 ∧ (readLevel bs i).length < 256 ^ 8 ∧
        (readLevel bs i).uncompressedLength < 256 ^ 8 :=
      ⟨Bytes.natAt_lt bs _ 8, Bytes.natAt_lt bs _ 8, Bytes.natAt_lt bs _ 8⟩
    simp only [decode, List.forall_mem_map]
    exact fun i _ => hentry i

theorem length_encode_level (l : Level) : l.encode.length = 24 := by
  simp [Level.encode]

theorem level_inj {l l' : Level}
    (hl : l.offset < 256 ^ 8 ∧ l.length < 256 ^ 8 ∧ l.uncompressedLength < 256 ^ 8)
    (hl' : l'.offset < 256 ^ 8 ∧ l'.length < 256 ^ 8 ∧ l'.uncompressedLength < 256 ^ 8)
    (h : l.encode = l'.encode) : l = l' := by
  obtain ⟨hfirst, huncompressed⟩ := List.append_inj h (by simp)
  obtain ⟨hoffset, hlength⟩ := List.append_inj hfirst (by simp)
  cases l
  cases l'
  rw [Level.mk.injEq]
  exact ⟨Bytes.ofNatLE_inj hl.1 hl'.1 hoffset, Bytes.ofNatLE_inj hl.2.1 hl'.2.1 hlength,
    Bytes.ofNatLE_inj hl.2.2 hl'.2.2 huncompressed⟩

/-- A header is made of its words, the place of its global data and its levels. -/
theorem ext_words {h h' : Header} (hwords : h.words = h'.words) (hsgd : h.sgd = h'.sgd)
    (hlevels : h.levels = h'.levels) : h = h' := by
  obtain ⟨_, _, _, _, _, _, _, _, _, ⟨_, _⟩, ⟨_, _⟩, _, _⟩ := h
  obtain ⟨_, _, _, _, _, _, _, _, _, ⟨_, _⟩, ⟨_, _⟩, _, _⟩ := h'
  simp only [words, List.cons.injEq, and_true] at hwords
  simp_all

theorem eq_of_encodeFixed {h h' : Header} (hn : h.Narrow) (hn' : h'.Narrow)
    (heq : h.encodeFixed = h'.encodeFixed) : h.words = h'.words ∧ h.sgd = h'.sgd := by
  -- Each part has the same size in both, so the parts are equal one by one, the last ones first.
  obtain ⟨hfirst, hlength⟩ := List.append_inj heq (by simp [words])
  obtain ⟨hfirst, hoffset⟩ := List.append_inj hfirst (by simp [words])
  have hwords := List.append_cancel_left hfirst
  refine ⟨flatMap_inj (by decide) (Bytes.ofNatLE_length 4) (fun word hword word' hword' =>
    Bytes.ofNatLE_inj (hn.words word hword) (hn'.words word' hword')) hwords, ?_⟩
  have hoffset := Bytes.ofNatLE_inj hn.sgdOffset hn'.sgdOffset hoffset
  have hlength := Bytes.ofNatLE_inj hn.sgdLength hn'.sgdLength hlength
  cases hs : h.sgd
  cases hs' : h'.sgd
  simp_all

/-- Headers of the right widths are told apart by the bytes in which they are written. -/
theorem encode_inj {h h' : Header} (hn : h.Narrow) (hn' : h'.Narrow) (heq : h.encode = h'.encode) :
    h = h' := by
  obtain ⟨hfixed, hindex⟩ := List.append_inj heq
    ((length_encodeFixed h).trans (length_encodeFixed h').symm)
  obtain ⟨hwords, hsgd⟩ := eq_of_encodeFixed hn hn' hfixed
  refine ext_words hwords hsgd (flatMap_inj (by decide) length_encode_level ?_ hindex)
  exact fun l hl l' hl' => level_inj (hn.levels l hl) (hn'.levels l' hl')

/-- The first bytes of a file leave only one header of the right widths. -/
theorem eq_decode_of_encode {bs : Bytes} {h : Header} (hbs : WellFormed bs) (hn : h.Narrow)
    (heq : h.encode = bs.take (80 + 24 * max 1 h.levelCount)) : h = decode bs := by
  have hfixed : h.encodeFixed = (decode bs).encodeFixed := by
    have hstart := congrArg (List.take 80) heq
    rw [encode_eq, List.take_left' (length_encodeFixed h), List.take_take,
      Nat.min_eq_left (Nat.le_add_right ..)] at hstart
    rw [hstart, encodeFixed_decode hbs.long hbs.identified]
  -- The level count is one of the words, so both headers are written in as many bytes.
  obtain ⟨hwords, -⟩ := eq_of_encodeFixed hn (narrow_decode bs) hfixed
  have hcount : h.levelCount = (decode bs).levelCount :=
    Option.some.inj (congrArg (·[7]?) hwords)
  refine encode_inj hn (narrow_decode bs) ?_
  rw [heq, encode_decode hbs, hcount]

/-- A header is read exactly from the files that are well-formed, and all others are refused. It is
the one header of the right widths that is written, level by level, as the first bytes of the file. -/
theorem read_inverts_encode (bs : Bytes) :
    ((∃ h, read bs = .ok h) ↔ WellFormed bs) ∧
      ((∃ problem, read bs = .error problem) ↔ ¬WellFormed bs) ∧
      ∀ h, read bs = .ok h ↔
        WellFormed bs ∧ h.Narrow ∧ h.encode = bs.take (80 + 24 * max 1 h.levelCount) := by
  have hread (h : Header) : read bs = .ok h ↔ WellFormed bs ∧ h = decode bs := by
    rw [read_eq_ok_iff, readable_iff_wellFormed]
  have hsome : (∃ h, read bs = .ok h) ↔ WellFormed bs := by
    constructor
    · rintro ⟨h, hok⟩
      exact ((hread h).1 hok).1
    · intro hbs
      exact ⟨decode bs, (hread _).2 ⟨hbs, rfl⟩⟩
  refine ⟨hsome, ?_, fun h => ?_⟩
  · rw [← hsome]
    cases read bs with
    | error problem => simp
    | ok h => simp
  · rw [hread]
    constructor
    · rintro ⟨hbs, rfl⟩
      exact ⟨hbs, narrow_decode bs, encode_decode hbs⟩
    · rintro ⟨hbs, hn, heq⟩
      exact ⟨hbs, eq_decode_of_encode hbs hn heq⟩

end Header

end Ktx2

end Gltf
