import UiMarkdown.Json.Basic
import UiMarkdown.Number.Literal

/-!
# What a plain scalar means

A plain scalar is null, a truth value, a number or a text, by its spelling
alone.  Digits after a leading zero are a text.
-/

namespace UiMarkdown

namespace Yaml

namespace Scalar

def isNull (s : List Char) : Bool :=
  ["null", "Null", "NULL", "~"].contains (String.ofList s)

def bool? (s : List Char) : Option Bool :=
  let text := String.ofList s
  if ["true", "True", "TRUE"].contains text then some true
  else if ["false", "False", "FALSE"].contains text then some false
  else none

/-- Whether a text is a zero and further digits, after an optional sign. -/
def isPadded (s : List Char) : Bool :=
  match (Literal.signed s).2 with
  | '0' :: rest => Literal.allDigits rest
  | _ => false

def digitValue? (base : Nat) (c : Char) : Option Nat :=
  let n := c.toNat
  let value :=
    if 48 ≤ n && n ≤ 57 then n - 48
    else if 97 ≤ n && n ≤ 122 then n - 87
    else if 65 ≤ n && n ≤ 90 then n - 55
    else base
  if value < base then some value else none

def digits? (base : Nat) (s : List Char) : Option Nat :=
  if s.isEmpty then none else s.foldlM (fun n c => (digitValue? base c).map (n * base + ·)) 0

def magnitude? (s : List Char) : Option Nat :=
  match s with
  | '0' :: 'x' :: rest => digits? 16 rest
  | '0' :: 'o' :: rest => digits? 8 rest
  | '0' :: 'b' :: rest => digits? 2 rest
  | _ => digits? 10 s

def int? (s : List Char) : Option Int :=
  if isPadded s then none
  else
    let (negative, body) := Literal.signed s
    (magnitude? body).map fun n => if negative then -(n : Int) else n

/-- Whether an integer fits 64 bits, without a sign or with one. -/
def fitsWord (i : Int) : Bool :=
  -(Nat.pow 2 63 : Int) ≤ i && i < Nat.pow 2 64

/-- Whether an integer fits 128 bits, without a sign or with one. -/
def fitsDouble (i : Int) : Bool :=
  -(Nat.pow 2 127 : Int) ≤ i && i < Nat.pow 2 128

/-- The spellings of infinity and of the result of an undefined operation. -/
def isUnbounded (s : List Char) : Bool :=
  [".inf", ".Inf", ".INF", "+.inf", "+.Inf", "+.INF", "-.inf", "-.Inf", "-.INF",
    ".nan", ".NaN", ".NAN"].contains (String.ofList s)

/-- A number with a fraction or an exponent; null for one that is not finite. -/
def float? (s : List Char) : Option Json :=
  if isUnbounded s then some .null
  else
    match s with
    | '+' :: '+' :: _ => none
    | '+' :: '-' :: _ => none
    | _ =>
        match Literal.float? s with
        | some (some x) => some (.num (.float x))
        | _ => none

/--
An integer as a value.  The outer `none` says that the text is no integer, the
inner one that it is an integer between 64 and 128 bits, which has no value.
-/
def integer? (s : List Char) : Option (Option Json) :=
  match int? s with
  | some i =>
      if fitsWord i then some (some (.num (.int i)))
      else if fitsDouble i then some none
      else none
  | none => none

def plain? (s : List Char) : Option Json :=
  if s.isEmpty || isNull s then some .null
  else
    match bool? s with
    | some b => some (.bool b)
    | none =>
        match integer? s with
        | some value => value
        | none =>
            match if isPadded s then none else float? s with
            | some value => some value
            | none => some (.str (String.ofList s))

/-- The value of a scalar with a tag, which a standard tag fixes the kind of. -/
def tagged? (tag : List Char) (s : List Char) : Option Json :=
  let name := String.ofList tag
  if name == "tag:yaml.org,2002:bool" then (bool? s).map .bool
  else if name == "tag:yaml.org,2002:int" then (integer? s).bind id
  else if name == "tag:yaml.org,2002:float" then float? s
  else if name == "tag:yaml.org,2002:null" then if isNull s then some .null else none
  else some (.str (String.ofList s))

/-- Whether a tag is one of an application's own, which has no value here. -/
def isLocalTag (tag : List Char) : Bool :=
  tag.head? == some '!'

end Scalar

end Yaml

end UiMarkdown
