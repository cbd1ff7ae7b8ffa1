/-!
# Binary floating point numbers

The finite binary64 numbers as exact rationals, and rounding to them.  Every
operation is exact arithmetic followed by one rounding to the nearest number,
where a tie goes to the even significand.
-/

namespace UiMarkdown

/-- The finite number `± significand · 2 ^ exponent`. -/
structure Binary64 where
  negative : Bool
  significand : Nat
  exponent : Int
  deriving DecidableEq, Repr

namespace Binary64

def leastExponent : Int := -1074

def greatestExponent : Int := 971

def zero (negative : Bool) : Binary64 :=
  ⟨negative, 0, leastExponent⟩

/-- A quotient rounded to the nearest natural number, ties to even. -/
def roundDiv (num den : Nat) : Nat :=
  let q := num / den
  let twice := 2 * (num % den)
  if twice < den then q
  else if den < twice then q + 1
  else if q % 2 == 0 then q else q + 1

/--
The largest `k` with `2 ^ k ≤ num / den`, for positive arguments.
-/
def floorLog2 (num den : Nat) : Int :=
  let k : Int := (num.log2 : Int) - den.log2
  let reaches :=
    if 0 ≤ k then den * Nat.pow 2 k.toNat ≤ num else den ≤ num * Nat.pow 2 (-k).toNat
  if reaches then k else k - 1

/--
The number nearest to `± num / den`; `none` when it lies beyond the largest
finite number.
-/
def ofRatio? (negative : Bool) (num den : Nat) : Option Binary64 :=
  if num == 0 then some (zero negative)
  else
    let exponent := max leastExponent (floorLog2 num den - 52)
    let significand :=
      if 0 ≤ exponent then roundDiv num (den * Nat.pow 2 exponent.toNat)
      else roundDiv (num * Nat.pow 2 (-exponent).toNat) den
    let (significand, exponent) :=
      if significand == Nat.pow 2 53 then (Nat.pow 2 52, exponent + 1) else (significand, exponent)
    if greatestExponent < exponent then none
    else if significand == 0 then some (zero negative)
    else some ⟨negative, significand, exponent⟩

def ratio (x : Binary64) : Nat × Nat :=
  if 0 ≤ x.exponent then (x.significand * Nat.pow 2 x.exponent.toNat, 1)
  else (x.significand, Nat.pow 2 (-x.exponent).toNat)

def mul? (x y : Binary64) : Option Binary64 :=
  let (a, b) := x.ratio
  let (c, d) := y.ratio
  ofRatio? (x.negative != y.negative) (a * c) (b * d)

def div? (x y : Binary64) : Option Binary64 :=
  let (a, b) := x.ratio
  let (c, d) := y.ratio
  ofRatio? (x.negative != y.negative) (a * d) (b * c)

def ofInt? (i : Int) : Option Binary64 :=
  ofRatio? (i < 0) i.natAbs 1

/--
The number nearest to `± digits · 10 ^ exponent`.  An exponent so far out that
the answer is clear is decided without computing the power.
-/
def ofDecimal? (negative : Bool) (digits : Nat) (exponent : Int) : Option Binary64 :=
  if digits == 0 then some (zero negative)
  else if 310 ≤ exponent then none
  else if digits.log2 + 1 + exponent < -324 then some (zero negative)
  else if 0 ≤ exponent then ofRatio? negative (digits * Nat.pow 10 exponent.toNat) 1
  else ofRatio? negative digits (Nat.pow 10 (-exponent).toNat)

/-- The integer part, rounding toward zero. -/
def truncate (x : Binary64) : Int :=
  let (a, b) := x.ratio
  if x.negative then -(a / b : Nat) else (a / b : Nat)

def exceeds (x : Binary64) (bound : Nat) : Bool :=
  let (a, b) := x.ratio
  bound * b < a

end Binary64

end UiMarkdown
