import UiMarkdown.Yaml.Cursor
import UiMarkdown.Yaml.Scalar

/-!
# Styles of scalars

A text is written plain if that reads back as the same text; otherwise in
single quotes, or in double quotes with escapes if it has characters that need
them.  A text with line feeds is a literal block if a block can hold it.
-/

namespace UiMarkdown

namespace Yaml

inductive Style where
  | plain
  | single
  | double
  | literal
  deriving DecidableEq, Repr

namespace Style

def isPrintable (c : Char) : Bool :=
  let n := c.toNat
  n == 10 || (0x20 ≤ n && n ≤ 0x7E) || (0xA0 ≤ n && n ≤ 0xD7FF) ||
    (0xE000 ≤ n && n ≤ 0xFFFD && n != 0xFEFF) || 0x10000 ≤ n

def adjacent (p q : Char → Bool) : List Char → Bool
  | c :: d :: rest => (p c && q d) || adjacent p q (d :: rest)
  | _ => false

def isSpace (c : Char) : Bool :=
  c == ' '

def separates (c : Char) : Bool :=
  Text.isSpaceOrTab c || isBreak c || c == '\x00'

def endsWord (rest : List Char) : Bool :=
  (rest.head?).all separates

/-- Whether a text after its first character has a mark that ends a plain scalar. -/
def hasInnerMark : (afterBlank : Bool) → List Char → Bool
  | _, [] => false
  | afterBlank, c :: rest =>
      (c == ':' && endsWord rest) || (c == '#' && afterBlank) ||
        hasInnerMark (separates c) rest

def hasMark : List Char → Bool
  | [] => false
  | c :: rest =>
      ['-', '-', '-'].isPrefixOf (c :: rest) || ['.', '.', '.'].isPrefixOf (c :: rest) ||
        "#,[]\x7b\x7d&*!|>'\"%@\x60".toList.contains c ||
        ((c == '?' || c == ':' || c == '-') && endsWord rest) ||
        hasInnerMark (separates c) rest

/-- Whether a plain scalar with this text means this text. -/
def readsAsText (s : List Char) : Bool :=
  !Scalar.isPadded s &&
    match Scalar.plain? s with
    | some (.str _) => true
    | _ => false

/-- Whether only double quotes can hold a text. -/
def needsEscapes (s : List Char) : Bool :=
  s.any (!isPrintable ·) || adjacent isSpace isBreak s

def isPlain (s : List Char) : Bool :=
  readsAsText s && !needsEscapes s && !s.any isBreak && !hasMark s &&
    !(s.head?).any isSpace && !(s.getLast?).any isSpace

def ofText (s : List Char) : Style :=
  if s.contains '\n' then
    if needsEscapes s || (s.getLast?).any isSpace then double else literal
  else if isPlain s then plain
  else if needsEscapes s || adjacent isBreak isSpace s then double
  else single

end Style

end Yaml

end UiMarkdown
