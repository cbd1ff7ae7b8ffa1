import UiMarkdown.Number.Binary64

/-!
# Number literals

Readers of a whole text as a number: a natural number or an integer of 64
bits, and a floating point number, which is rounded correctly.
-/

namespace UiMarkdown

namespace Literal

def allDigits (s : List Char) : Bool :=
  !s.isEmpty && s.all Char.isDigit

def digitsValue (digits : List Char) : Nat :=
  digits.foldl (fun n c => n * 10 + (c.toNat - 48)) 0

/-- The digits and the sign of a text that may start with a sign. -/
def signed (s : List Char) : Bool × List Char :=
  match s with
  | '+' :: rest => (false, rest)
  | '-' :: rest => (true, rest)
  | _ => (false, s)

/-- A natural number below `2 ^ 64`; it may have a plus sign. -/
def nat? (s : List Char) : Option Nat :=
  let digits := match s with
    | '+' :: rest => rest
    | _ => s
  if allDigits digits && digitsValue digits < Nat.pow 2 64 then some (digitsValue digits) else none

/-- An integer of 64 bits; it may have a sign. -/
def int? (s : List Char) : Option Int :=
  let (negative, digits) := signed s
  if allDigits digits then
    let value : Int := if negative then -(digitsValue digits : Int) else digitsValue digits
    if -(Nat.pow 2 63 : Int) ≤ value && value < Nat.pow 2 63 then some value else none
  else none

/-- The words for infinity and for the result of an undefined operation. -/
def isWord (s : List Char) : Bool :=
  let s := s.map Char.toLower
  s == ['i', 'n', 'f'] || s == ['i', 'n', 'f', 'i', 'n', 'i', 't', 'y'] || s == ['n', 'a', 'n']

/-- The exponent after a mantissa; an empty text is the exponent zero. -/
def exponent? (s : List Char) : Option Int :=
  match s with
  | [] => some 0
  | c :: rest =>
      if c == 'e' || c == 'E' then
        let (negative, digits) := signed rest
        if allDigits digits then
          let value : Int := min (digitsValue digits) 100000000
          some (if negative then -value else value)
        else none
      else none

/--
A floating point number.  The outer `none` says that the text is no such
number, the inner one that the number is not finite.
-/
def float? (s : List Char) : Option (Option Binary64) :=
  let (negative, body) := signed s
  if isWord body then some none
  else
    let whole := body.takeWhile Char.isDigit
    let rest := body.dropWhile Char.isDigit
    let (fraction, rest) := match rest with
      | '.' :: after => (after.takeWhile Char.isDigit, after.dropWhile Char.isDigit)
      | _ => ([], rest)
    if whole.isEmpty && fraction.isEmpty then none
    else (exponent? rest).map fun e =>
      Binary64.ofDecimal? negative (digitsValue (whole ++ fraction)) (e - fraction.length)

end Literal

end UiMarkdown
