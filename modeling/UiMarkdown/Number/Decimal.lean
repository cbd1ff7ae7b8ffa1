import UiMarkdown.Number.Binary64

/-!
# Decimal text of numbers

A finite number is written with the fewest decimal digits that read back as
the same number; among those, with the digits nearest to it.  Where positional
notation ends is a matter of the layout.
-/

namespace UiMarkdown

/-- The number `digits · 10 ^ exponent`. -/
structure Decimal where
  digits : Nat
  exponent : Int
  deriving DecidableEq, Repr

namespace Decimal

def dropZeros : (fuel : Nat) → Decimal → Decimal
  | 0, d => d
  | fuel + 1, d =>
      if d.digits != 0 && d.digits % 10 == 0 then dropZeros fuel ⟨d.digits / 10, d.exponent + 1⟩
      else d

end Decimal

namespace Binary64

/--
The numbers, as multiples of `2 ^ (exponent - 2)`, between which every real
number rounds to a positive `x`: the lower end, `x` itself, the upper end.
-/
def roundingInterval (x : Binary64) : Nat × Nat × Nat :=
  let centre := 4 * x.significand
  let below := if x.significand == Nat.pow 2 52 && leastExponent < x.exponent then 1 else 2
  (centre - below, centre, centre + 2)

/--
The decimal with the given exponent nearest to a positive number, if one lies
in the interval of the reals that round to it.
-/
def nearestOnGrid? (x : Binary64) (exponent : Int) : Option Decimal :=
  let (low, centre, high) := x.roundingInterval
  let unit := x.exponent - 2
  -- On both sides of a comparison, multiply by the powers with negative exponents.
  let binary := if 0 ≤ unit then Nat.pow 2 unit.toNat else 1
  let binaryInv := if 0 ≤ unit then 1 else Nat.pow 2 (-unit).toNat
  let decimal := if 0 ≤ exponent then Nat.pow 10 exponent.toNat else 1
  let decimalInv := if 0 ≤ exponent then 1 else Nat.pow 10 (-exponent).toNat
  let scale := binary * decimalInv
  let grid := decimal * binaryInv
  let included := x.significand % 2 == 0
  let inside (k : Nat) : Bool :=
    let v := k * grid
    (low * scale < v || (included && low * scale == v)) &&
      (v < high * scale || (included && v == high * scale))
  let floor := centre * scale / grid
  let nearest := roundDiv (centre * scale) grid
  let other := if nearest == floor then floor + 1 else floor
  if nearest != 0 && inside nearest then some ⟨nearest, exponent⟩
  else if other != 0 && inside other then some ⟨other, exponent⟩
  else none

/-- The largest `k` with `10 ^ k ≤ x`, for a positive number. -/
def floorLog10 (x : Binary64) : Int :=
  let (num, den) := x.ratio
  let reaches (k : Int) : Bool :=
    if 0 ≤ k then den * Nat.pow 10 k.toNat ≤ num else den ≤ num * Nat.pow 10 (-k).toNat
  let guess := (floorLog2 num den * 30103) / 100000
  if reaches (guess + 1) then guess + 1
  else if reaches guess then guess
  else guess - 1

def shortestFrom (x : Binary64) (leading : Int) : (fuel size : Nat) → Decimal
  | 0, _ => ⟨x.significand, 0⟩
  | fuel + 1, size =>
      match x.nearestOnGrid? (leading + 1 - size) with
      | some d => d.dropZeros 18
      | none => shortestFrom x leading fuel (size + 1)

/-- The shortest decimal that reads back as a positive number. -/
def shortest (x : Binary64) : Decimal :=
  shortestFrom x x.floorLog10 17 1

end Binary64

/--
How a number with a fraction is laid out: the exponents of the leading digit
that are written positionally, and whether a positive exponent has a sign.
-/
structure FloatLayout where
  least : Int
  limit : Int
  plus : Bool

namespace FloatLayout

def withPoint (digits : List Char) (k : Nat) : List Char :=
  digits.take k ++ '.' :: digits.drop k

def integer (i : Int) : List Char :=
  if i < 0 then '-' :: Nat.toDigits 10 i.natAbs else Nat.toDigits 10 i.natAbs

def decimal (layout : FloatLayout) (d : Decimal) : List Char :=
  let digits := Nat.toDigits 10 d.digits
  let leading : Int := d.exponent + digits.length - 1
  if layout.least ≤ leading && leading < layout.limit then
    if 0 ≤ d.exponent then digits ++ List.replicate d.exponent.toNat '0' ++ ['.', '0']
    else if 0 ≤ leading then withPoint digits (leading.toNat + 1)
    else ['0', '.'] ++ List.replicate ((-leading).toNat - 1) '0' ++ digits
  else
    let mantissa := if digits.length == 1 then digits else withPoint digits 1
    let sign := if 0 ≤ leading && layout.plus then ['+'] else []
    mantissa ++ 'e' :: sign ++ integer leading

def render (layout : FloatLayout) (x : Binary64) : List Char :=
  let body := if x.significand == 0 then ['0', '.', '0'] else layout.decimal x.shortest
  if x.negative then '-' :: body else body

end FloatLayout

end UiMarkdown
