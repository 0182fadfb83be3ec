/-!
Byte strings, numbers stored in them, and ranges given by signed positions. A range is clipped to the
bytes it is taken from, and a negative position counts from the end, so `slice` and `splice` are
total; `slice_eq_take_drop` covers the ordinary case of positions inside the bytes.
-/

namespace Gltf

abbrev Bytes := List UInt8

namespace Bytes

/-- The number whose base 256 digits are the bytes, least significant first. -/
def toNatLE : Bytes → Nat
  | [] => 0
  | b :: bs => b.toNat + 256 * toNatLE bs

/-- The number whose base 256 digits are the bytes, most significant first. -/
def toNatBE (bs : Bytes) : Nat := bs.foldl (fun n b => 256 * n + b.toNat) 0

/-- The `width` least significant base 256 digits of a number, least significant first. -/
def ofNatLE : Nat → Nat → Bytes
  | 0, _ => []
  | width + 1, n => UInt8.ofNat n :: ofNatLE width (n / 256)

/-- The number stored in `width` bytes from `offset` on. -/
def natAt (bs : Bytes) (offset width : Nat) : Nat :=
  toNatLE ((bs.drop offset).take width)

/-- The number stored in `width` bytes from `offset` on, most significant byte first. -/
def natAtBE (bs : Bytes) (offset width : Nat) : Nat :=
  toNatBE ((bs.drop offset).take width)

/-- The `width` bytes that hold `n` modulo two to the number of their bits, read as a number in
two's complement. -/
def signed (width n : Nat) : Int :=
  if 2 * n < Nat.pow 256 width then n else (n : Int) - Nat.pow 256 width

/-- Whether eight bytes hold a number in two's complement. -/
def isWord (n : Int) : Bool := -0x8000000000000000 ≤ n && n < 0x8000000000000000

/-- The place that a signed position names in `length` bytes. -/
def place (length : Nat) (position : Int) : Nat :=
  if position < 0 then (length + position).toNat else min position.toNat length

/-- The bytes from `start` up to `stop`. -/
def slice (bs : Bytes) (start stop : Int) : Bytes :=
  (bs.drop (place bs.length start)).take (place bs.length stop - place bs.length start)

/-- The bytes with those from `start` up to `stop` replaced; an empty range inserts at `start`. -/
def splice (bs : Bytes) (start stop : Int) (replacement : Bytes) : Bytes :=
  bs.take (place bs.length start) ++ replacement ++
    bs.drop (max (place bs.length start) (place bs.length stop))

/-- The bytes followed by as many copies of `fill` as reach a multiple of four. -/
def padTo4 (bs : Bytes) (fill : UInt8) : Bytes :=
  bs ++ List.replicate ((4 - bs.length % 4) % 4) fill

@[simp] theorem ofNatLE_length (width n : Nat) : (ofNatLE width n).length = width := by
  induction width generalizing n with
  | zero => rfl
  | succ width ih => simp [ofNatLE, ih]

theorem toNatLE_ofNatLE (width n : Nat) : toNatLE (ofNatLE width n) = n % Nat.pow 256 width := by
  induction width generalizing n with
  | zero => simp [ofNatLE, toNatLE, Nat.mod_one]
  | succ width ih =>
      simp only [ofNatLE, toNatLE, ih, UInt8.toNat_ofNat']
      rw [show Nat.pow 256 (width + 1) = 256 * Nat.pow 256 width from Nat.pow_succ', Nat.mod_mul]

theorem place_of_le {length position : Nat} (h : position ≤ length) :
    place length position = position := by
  simp only [place, Int.toNat_natCast]
  split <;> omega

theorem slice_eq_take_drop {bs : Bytes} {start stop : Nat} (h : start ≤ stop)
    (hs : stop ≤ bs.length) : slice bs start stop = (bs.drop start).take (stop - start) := by
  simp [slice, place_of_le hs, place_of_le (Nat.le_trans h hs)]

theorem take_drop_congr {bs bs' : Bytes} {place width : Nat}
    (h : ∀ j < width, bs'[place + j]? = bs[place + j]?) :
    (bs'.drop place).take width = (bs.drop place).take width := by
  apply List.ext_getElem?
  intro j
  by_cases hj : j < width
  · rw [List.getElem?_take_of_lt hj, List.getElem?_take_of_lt hj, List.getElem?_drop,
      List.getElem?_drop, h j hj]
  · rw [List.getElem?_eq_none, List.getElem?_eq_none] <;> simp <;> omega

theorem natAt_congr {bs bs' : Bytes} {place width : Nat}
    (h : ∀ j < width, bs'[place + j]? = bs[place + j]?) :
    natAt bs' place width = natAt bs place width :=
  congrArg toNatLE (take_drop_congr h)

end Bytes

end Gltf
