/-!
IEEE 754 binary64 numbers as 64 bits with an exact reading: a finite number is a sign and
`significand * 2 ^ exponent`. Every other number system enters through `ofRatio`, which rounds an
exact quotient once, to nearest with ties to even.
-/

namespace Gltf

structure Binary64 where
  bits : UInt64
deriving DecidableEq, Repr

namespace Binary64

/-- The weight of the sign bit. -/
def signWeight : Nat := 0x8000000000000000

/-- The weight of the lowest bit of the exponent, and of the bit before the fraction that a
significand has unless it is subnormal. -/
def unitWeight : Nat := 0x10000000000000

/-- The bits without the sign, which order the numbers of one sign. -/
def magnitude (x : Binary64) : Nat := x.bits.toNat % signWeight

def isNegative (x : Binary64) : Bool := signWeight ≤ x.bits.toNat

def infinityMagnitude : Nat := 2047 * unitWeight

def ofMagnitude (negative : Bool) (magnitude : Nat) : Binary64 :=
  ⟨UInt64.ofNat (if negative then signWeight + magnitude else magnitude)⟩

def zero : Binary64 := ofMagnitude false 0

def isNaN (x : Binary64) : Bool := infinityMagnitude < x.magnitude

def isFinite (x : Binary64) : Bool := x.magnitude < infinityMagnitude

def significand (x : Binary64) : Nat :=
  if x.magnitude < unitWeight then x.magnitude else x.magnitude % unitWeight + unitWeight

def exponent (x : Binary64) : Int :=
  if x.magnitude < unitWeight then -1074 else (x.magnitude / unitWeight : Nat) - 1075

/-- The place of a number in the order of all numbers that are not NaN; the two zeros share one. -/
def rank (x : Binary64) : Int :=
  if x.isNegative then -(x.magnitude : Int) else x.magnitude

/-- The order of numbers; a NaN is not in it. -/
def le (x y : Binary64) : Bool := !x.isNaN && !y.isNaN && x.rank ≤ y.rank

/-- The absolute value of a finite number as a quotient. -/
def ratio (x : Binary64) : Nat × Nat :=
  if 0 ≤ x.exponent then (x.significand * Nat.pow 2 x.exponent.toNat, 1)
  else (x.significand, Nat.pow 2 (-x.exponent).toNat)

/-- The integer that a number is, if it is one. -/
def toInt? (x : Binary64) : Option Int :=
  if x.isFinite ∧ x.ratio.1 % x.ratio.2 = 0 then
    some (if x.isNegative then -(x.ratio.1 / x.ratio.2 : Nat) else (x.ratio.1 / x.ratio.2 : Nat))
  else none

/-- The integer nearest to a quotient; of two, the even one. -/
def roundDiv (num den : Nat) : Nat :=
  if 2 * (num % den) < den ∨ 2 * (num % den) = den ∧ num / den % 2 = 0 then num / den
  else num / den + 1

/-- The greatest `k` for which a positive quotient is at least `2 ^ k`. -/
def binaryExponent (num den : Nat) : Int :=
  let k : Int := (num.log2 : Int) - den.log2
  if num * Nat.pow 2 (-k).toNat < den * Nat.pow 2 k.toNat then k - 1 else k

/-- The magnitude nearest to a quotient; what lies past the greatest finite one is infinite. -/
def nearestMagnitude (num den : Nat) : Nat :=
  if num = 0 then 0
  else
    let q := max (binaryExponent num den - 52) (-1074)
    min infinityMagnitude
      ((q + 1074).toNat * unitWeight +
        roundDiv (num * Nat.pow 2 (-q).toNat) (den * Nat.pow 2 q.toNat))

def ofRatio (negative : Bool) (num den : Nat) : Binary64 :=
  ofMagnitude negative (nearestMagnitude num den)

def ofInt (n : Int) : Binary64 := ofRatio (n < 0) n.natAbs 1

def decimalLength (n : Nat) : Nat := (Nat.toDigits 10 n).length

/-- The number nearest to `digits * 10 ^ scale`. Past `10 ^ 310` and below `10 ^ (-330)` the answer
is known without the power. -/
def ofDecimal (negative : Bool) (digits : Nat) (scale : Int) : Binary64 :=
  let size : Int := decimalLength digits + scale
  if digits = 0 ∨ size < -330 then ofMagnitude negative 0
  else if 311 < size then ofMagnitude negative infinityMagnitude
  else ofRatio negative (digits * Nat.pow 10 scale.toNat) (Nat.pow 10 (-scale).toNat)

/-- The number that 32 bits of IEEE 754 binary32 hold: a sign, eight bits of exponent and 23 of
fraction, to which binary64 adds 29 more. -/
def ofBinary32 (bits : Nat) : Binary64 :=
  let negative : Bool := 0x80000000 ≤ bits
  let exponentBits := bits / 0x800000 % 256
  let fraction := bits % 0x800000
  let widened := fraction * 0x20000000
  if exponentBits = 255 then ofMagnitude negative (infinityMagnitude + widened)
  else if exponentBits = 0 then ofRatio negative fraction (Nat.pow 2 149)
  else ofMagnitude negative ((exponentBits + 896) * unitWeight + widened)

example : ofDecimal false 1 (-1) = ⟨0x3fb999999999999a⟩ := by decide +kernel
example : ofDecimal true 5 (-324) = ⟨0x8000000000000001⟩ := by decide +kernel
example : ofDecimal false 1 400 = ⟨0x7ff0000000000000⟩ := by decide +kernel
example : (ofInt 0x8000000000000000).toInt? = some 0x8000000000000000 := by decide +kernel

end Binary64

end Gltf
