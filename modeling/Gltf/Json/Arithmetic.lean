import Gltf.Binary64.Arithmetic
import Gltf.Json

/-!
Arithmetic on numbers of both kinds. Integers are added and multiplied exactly; as soon as one number
is a binary64 the other one is rounded to one too, which fails for integers past its range. The order
is that of the exact values.
-/

namespace Gltf.Number

def isNaN : Number → Bool
  | .int _ => false
  | .float x => x.isNaN

/-- The nearest binary64, unless that is infinite for an integer. -/
def widen? : Number → Option Binary64
  | .int n =>
      let x := Binary64.ofInt n
      if x.isFinite then some x else none
  | .float x => some x

def combine? (integers : Int → Int → Int) (floats : Binary64 → Binary64 → Binary64)
    (a b : Number) : Option Number :=
  match a, b with
  | .int m, .int n => some (.int (integers m n))
  | a, b => do some (.float (floats (← a.widen?) (← b.widen?)))

def add? : Number → Number → Option Number := combine? (· + ·) Binary64.add

def sub? : Number → Number → Option Number := combine? (· - ·) fun x y => x.add y.negate

def mul? : Number → Number → Option Number := combine? (· * ·) Binary64.mul

/-- A number that is finite as a quotient. -/
def fraction? : Number → Option (Int × Nat)
  | .int n => some (n, 1)
  | .float x => if x.isFinite then some x.fraction else none

/-- Whether a number is the infinite one of a sign. -/
def isInfinite (negative : Bool) : Number → Bool
  | .int _ => false
  | .float x => !x.isFinite && !x.isNaN && x.isNegative == negative

/-- The order of the exact values; a NaN is not in it. -/
def le (a b : Number) : Bool :=
  match a.fraction?, b.fraction? with
  | some (m, d), some (n, e) => m * e ≤ n * d
  | _, _ => !a.isNaN && !b.isNaN && (a.isInfinite true || b.isInfinite false)

def lt (a b : Number) : Bool := a.le b && !b.le a

/-- Whether two numbers have one value. -/
def sameValue (a b : Number) : Bool := a.le b && b.le a

end Gltf.Number
