import Gltf.Binary64

/-!
Sums and products of binary64 numbers: the exact result, rounded once.
-/

namespace Gltf.Binary64

def nan : Binary64 := ofMagnitude false (infinityMagnitude + unitWeight / 2)

def negate (x : Binary64) : Binary64 := ofMagnitude (!x.isNegative) x.magnitude

/-- A finite number as a quotient with its sign. -/
def fraction (x : Binary64) : Int × Nat :=
  (if x.isNegative then -(x.ratio.1 : Int) else x.ratio.1, x.ratio.2)

/-- The sum. It is zero with a sign only if both numbers are. -/
def add (x y : Binary64) : Binary64 :=
  if x.isNaN || y.isNaN then nan
  else if x.isFinite && y.isFinite then
    let (m, d) := x.fraction
    let (n, e) := y.fraction
    let sum := m * e + n * d
    if sum = 0 then ofMagnitude (x.isNegative && y.isNegative) 0
    else ofRatio (sum < 0) sum.natAbs (d * e)
  else if x.isFinite then y
  else if y.isFinite || x.isNegative == y.isNegative then x
  else nan

def mul (x y : Binary64) : Binary64 :=
  let negative := x.isNegative != y.isNegative
  if x.isFinite && y.isFinite then
    ofRatio negative (x.ratio.1 * y.ratio.1) (x.ratio.2 * y.ratio.2)
  else if x.isNaN || y.isNaN || x.magnitude = 0 || y.magnitude = 0 then nan
  else ofMagnitude negative infinityMagnitude

example : (ofDecimal false 1 (-1)).add (ofDecimal false 2 (-1)) = ⟨0x3fd3333333333334⟩ := by
  decide +kernel
example : (ofInt (-3)).mul (ofDecimal false 5 (-1)) = ofDecimal true 15 (-1) := by decide +kernel

end Gltf.Binary64
