import UiMarkdown.Json.Basic
import UiMarkdown.Text.Chars

/-!
# Reading Json text

A reader takes text from the front and gives the value with the text that is
left.  A number with a fraction or an exponent is read as its leading digits,
as many as fit 64 bits, times or divided by a power of ten, each step rounded.
-/

namespace UiMarkdown

namespace Json

def isSpace (c : Char) : Bool :=
  c == ' ' || c == '\n' || c == '\t' || c == '\r'

def readHex4? : List Char → Option (Nat × List Char)
  | a :: b :: c :: d :: rest => do
      let a ← Text.hexValue? a
      let b ← Text.hexValue? b
      let c ← Text.hexValue? c
      let d ← Text.hexValue? d
      return (((a * 16 + b) * 16 + c) * 16 + d, rest)
  | _ => none

/-- The character of an escape by code, which may take two surrogates. -/
def readUnicode? (s : List Char) : Option (Char × List Char) := do
  let (first, rest) ← readHex4? s
  if 0xD800 ≤ first && first < 0xDC00 then
    match rest with
    | '\\' :: 'u' :: low =>
        let (second, rest) ← readHex4? low
        if 0xDC00 ≤ second && second < 0xE000 then
          return (Char.ofNat (0x10000 + (first - 0xD800) * 0x400 + (second - 0xDC00)), rest)
        else none
    | _ => none
  else if 0xDC00 ≤ first && first < 0xE000 then none
  else return (Char.ofNat first, rest)

/-- The rest of a text after its opening quote, with the characters read so far in reverse. -/
def readString? : (fuel : Nat) → (read : List Char) → List Char → Option (String × List Char)
  | 0, _, _ => none
  | fuel + 1, read, s =>
      match s with
      | '"' :: rest => some (String.ofList read.reverse, rest)
      | '\\' :: 'u' :: rest =>
          match readUnicode? rest with
          | some (c, rest) => readString? fuel (c :: read) rest
          | none => none
      | '\\' :: c :: rest =>
          let image : Option Char :=
            if c == '"' || c == '\\' || c == '/' then some c
            else if c == 'b' then some '\x08'
            else if c == 'f' then some '\x0c'
            else if c == 'n' then some '\n'
            else if c == 'r' then some '\r'
            else if c == 't' then some '\t'
            else none
          match image with
          | some c => readString? fuel (c :: read) rest
          | none => none
      | c :: rest => if c.toNat < 0x20 then none else readString? fuel (c :: read) rest
      | [] => none

def digitsValue (digits : List Char) : Nat :=
  digits.foldl (fun n c => n * 10 + (c.toNat - 48)) 0

/--
As many leading digits as fit 64 bits, continuing from a number read before;
with the digits that did not fit.
-/
def takeWord : (value : Nat) → List Char → Nat × List Char
  | value, [] => (value, [])
  | value, c :: rest =>
      let next := value * 10 + (c.toNat - 48)
      if next < Nat.pow 2 64 then takeWord next rest else (value, c :: rest)

/-- Scale by a power of ten, at most `10 ^ 308` at a time. -/
def scale? : (fuel : Nat) → Binary64 → Int → Option Binary64
  | 0, _, _ => none
  | fuel + 1, x, exponent =>
      if exponent.natAbs ≤ 308 then do
        let power ← Binary64.ofDecimal? false 1 exponent.natAbs
        if 0 ≤ exponent then x.mul? power else x.div? power
      else if x.significand == 0 then some x
      else if 0 ≤ exponent then none
      else do
        let power ← Binary64.ofDecimal? false 1 308
        scale? fuel (← x.div? power) (exponent + 308)

def readExponent? (s : List Char) : Option (Int × List Char) :=
  let (negative, s) : Bool × List Char :=
    match s with
    | '+' :: rest => (false, rest)
    | '-' :: rest => (true, rest)
    | _ => (false, s)
  let digits := s.takeWhile Char.isDigit
  if digits.isEmpty then none
  else
    let value := min (digitsValue digits) 1000000
    some (if negative then -value else value, s.dropWhile Char.isDigit)

def readNumber? (s : List Char) : Option (Number × List Char) := do
  let (negative, s) : Bool × List Char :=
    match s with
    | '-' :: rest => (true, rest)
    | _ => (false, s)
  let digits := s.takeWhile Char.isDigit
  let rest := s.dropWhile Char.isDigit
  if digits.isEmpty || (digits.head? == some '0' && 1 < digits.length) then none
  else
    let (word, dropped) := takeWord 0 digits
    let (fraction, rest) : Option (List Char) × List Char :=
      match rest with
      | '.' :: after => (some (after.takeWhile Char.isDigit), after.dropWhile Char.isDigit)
      | _ => (none, rest)
    if fraction == some [] then none
    else
      let (exponent, rest) : Option Int × List Char ← match rest with
        | c :: after =>
            if c == 'e' || c == 'E' then do
              let (e, rest) ← readExponent? after
              pure (some e, rest)
            else pure (none, rest)
        | [] => pure (none, rest)
      if fraction.isNone && exponent.isNone && dropped.isEmpty then
        if !negative then return (.int word, rest)
        else if word != 0 && word ≤ Nat.pow 2 63 then return (.int (-word), rest)
        else
          let x ← Binary64.ofInt? word
          return (.float { x with negative := true }, rest)
      else
        let places := fraction.getD []
        let (significand, extra) := takeWord word places
        let used : Int := places.length - extra.length
        let x ← Binary64.ofInt? significand
        let x ← scale? 4000 x (dropped.length - used + exponent.getD 0)
        return (.float { x with negative := negative }, rest)

mutual

def read? : (fuel : Nat) → List Char → Option (Json × List Char)
  | 0, _ => none
  | fuel + 1, s =>
      match s.dropWhile isSpace with
      | 'n' :: 'u' :: 'l' :: 'l' :: rest => some (.null, rest)
      | 't' :: 'r' :: 'u' :: 'e' :: rest => some (.bool true, rest)
      | 'f' :: 'a' :: 'l' :: 's' :: 'e' :: rest => some (.bool false, rest)
      | '"' :: rest => (readString? (rest.length + 1) [] rest).map fun (s, rest) => (.str s, rest)
      | '[' :: rest =>
          match rest.dropWhile isSpace with
          | ']' :: rest => some (.arr [], rest)
          | rest => (readItems? fuel rest).map fun (items, rest) => (.arr items, rest)
      | '\x7b' :: rest =>
          match rest.dropWhile isSpace with
          | '\x7d' :: rest => some (.obj [], rest)
          | rest =>
              (readMembers? fuel rest).map fun (members, rest) =>
                (.obj (Object.ofList members), rest)
      | s => (readNumber? s).map fun (n, rest) => (.num n, rest)

def readItems? : (fuel : Nat) → List Char → Option (List Json × List Char)
  | 0, _ => none
  | fuel + 1, s =>
      match read? fuel s with
      | none => none
      | some (item, rest) =>
          match rest.dropWhile isSpace with
          | ',' :: rest => (readItems? fuel rest).map fun (items, rest) => (item :: items, rest)
          | ']' :: rest => some ([item], rest)
          | _ => none

def readMembers? : (fuel : Nat) → List Char → Option (List (String × Json) × List Char)
  | 0, _ => none
  | fuel + 1, s =>
      match s.dropWhile isSpace with
      | '"' :: rest =>
          match readString? (rest.length + 1) [] rest with
          | none => none
          | some (key, rest) =>
              match rest.dropWhile isSpace with
              | ':' :: rest =>
                  match read? fuel rest with
                  | none => none
                  | some (value, rest) =>
                      match rest.dropWhile isSpace with
                      | ',' :: rest =>
                          (readMembers? fuel rest).map fun (members, rest) =>
                            ((key, value) :: members, rest)
                      | '\x7d' :: rest => some ([(key, value)], rest)
                      | _ => none
              | _ => none
      | _ => none

end

/-- The value that a text holds, and nothing else but white space. -/
def ofText? (text : String) : Option Json :=
  let s := text.toList
  match read? (2 * s.length + 2) s with
  | some (value, rest) => if rest.all isSpace then some value else none
  | none => none

end Json

end UiMarkdown
