import Gltf.Binary64

/-!
Decimal text of binary64 numbers: the fewest digits that read back, and of those the nearest. A
`Layout` says how the digits are set out; `Layout.text` prints with it.
-/

namespace Gltf.Binary64

/-- The number `digits * 10 ^ scale`. -/
structure Decimal where
  digits : Nat
  scale : Int
deriving DecidableEq, Repr

/-- The least `k` for which a positive quotient is below `10 ^ k`. -/
def decimalExponent (num den : Nat) : Int :=
  let k : Int := (decimalLength num : Int) - decimalLength den
  if num * Nat.pow 10 (-k).toNat < den * Nat.pow 10 k.toNat then k else k + 1

/-- The nearer of a number's two neighbours on the grid of decimals with `count` digits, among
those that read back as the number. -/
def neighbour? (x : Binary64) (count : Nat) : Option Decimal :=
  let scale := decimalExponent x.ratio.1 x.ratio.2 - count
  let num := x.ratio.1 * Nat.pow 10 (-scale).toNat
  let den := x.ratio.2 * Nat.pow 10 scale.toNat
  let below : Decimal := ⟨num / den, scale⟩
  let above : Decimal := ⟨num / den + 1, scale⟩
  let readsBack (d : Decimal) : Bool := ofDecimal x.isNegative d.digits d.scale == x
  let nearest := if roundDiv num den = num / den then below else above
  let other := if roundDiv num den = num / den then above else below
  if readsBack nearest then some nearest
  else if readsBack other then some other
  else none

/-- All digits of a finite number. -/
def exactDecimal (x : Binary64) : Decimal :=
  if 0 ≤ x.exponent then ⟨x.ratio.1, 0⟩
  else ⟨x.significand * Nat.pow 5 (-x.exponent).toNat, x.exponent⟩

/-- The shortest decimal that reads back as a finite number other than zero; seventeen digits are
always enough. -/
def shortest (x : Binary64) : Decimal :=
  ((List.range 17).findSome? fun n => neighbour? x (n + 1)).getD (exactDecimal x)

/-- Where positional notation begins and ends, by the exponent of the first digit, and what stands
for the infinities. -/
structure Layout where
  positionalFrom : Int
  positionalBelow : Int
  infinity : List Char
  nan : List Char

namespace Layout

def exponentText (e : Int) : List Char :=
  (if e < 0 then '-' else '+') ::
    (if e.natAbs < 10 then '0' :: Nat.toDigits 10 e.natAbs else Nat.toDigits 10 e.natAbs)

/-- Digits with a point behind the first `point` of them, with zeros where digits are missing. -/
def positional (digits : List Char) (point : Int) : List Char :=
  if point ≤ 0 then '0' :: '.' :: List.replicate (-point).toNat '0' ++ digits
  else if (digits.length : Int) ≤ point then
    digits ++ List.replicate (point.toNat - digits.length) '0' ++ ['.', '0']
  else digits.take point.toNat ++ '.' :: digits.drop point.toNat

def scientific (digits : List Char) (exponent : Int) : List Char :=
  (match digits with
    | [] => []
    | [d] => [d]
    | d :: ds => d :: '.' :: ds) ++ 'e' :: exponentText exponent

/-- A decimal with its trailing zeros dropped. -/
def decimalText (layout : Layout) (d : Decimal) : List Char :=
  let all := Nat.toDigits 10 d.digits
  let point : Int := all.length + d.scale
  let digits := (all.reverse.dropWhile (· = '0')).reverse
  if layout.positionalFrom ≤ point - 1 ∧ point - 1 < layout.positionalBelow then
    positional digits point
  else scientific digits (point - 1)

def text (layout : Layout) (x : Binary64) : List Char :=
  if x.isNaN then layout.nan
  else
    (if x.isNegative then ['-'] else []) ++
      (if !x.isFinite then layout.infinity
        else if x.magnitude = 0 then ['0', '.', '0']
        else layout.decimalText x.shortest)

end Layout

end Gltf.Binary64
