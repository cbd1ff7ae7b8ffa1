import UiMarkdown.Json.Writer
import UiMarkdown.Yaml.Style

/-!
# Yaml text

Mappings and sequences are blocks, indented by two spaces; a sequence stands at
the column of its key.  Empty ones are written with brackets.
-/

namespace UiMarkdown

namespace Yaml

/-- Numbers are written as in Json, but a positive exponent has no sign. -/
def numberLayout : FloatLayout := { Number.layout with plus := false }

def writeNumber : Number → List Char
  | .int i => FloatLayout.integer i
  | .float x => numberLayout.render x

def upperHexDigit (n : Nat) : Char :=
  (Nat.digitChar n).toUpper

def writeHex : (size : Nat) → Nat → List Char
  | 0, _ => []
  | size + 1, n => writeHex size (n / 16) ++ [upperHexDigit (n % 16)]

def escapeLetters : List (Char × Char) :=
  [('"', '"'), ('\\', '\\'), ('\x00', '0'), ('\x07', 'a'), ('\x08', 'b'), ('\t', 't'),
    ('\n', 'n'), ('\x0b', 'v'), ('\x0c', 'f'), ('\r', 'r'), ('\x1b', 'e'), ('\u0085', 'N'),
    ('\u2028', 'L'), ('\u2029', 'P')]

def escapeChar (c : Char) : List Char :=
  match escapeLetters.lookup c with
  | some letter => ['\\', letter]
  | none =>
      if Style.isPrintable c then [c]
      else if c.toNat ≤ 0xFF then '\\' :: 'x' :: writeHex 2 c.toNat
      else if c.toNat ≤ 0xFFFF then '\\' :: 'u' :: writeHex 4 c.toNat
      else '\\' :: 'U' :: writeHex 8 c.toNat

def spaces (n : Nat) : List Char :=
  List.replicate n ' '

def indentLines (indent : Nat) : (lineStart : Bool) → List Char → List Char
  | _, [] => []
  | lineStart, c :: rest =>
      if isBreak c then c :: indentLines indent true rest
      else if lineStart then spaces indent ++ c :: indentLines indent false rest
      else c :: indentLines indent false rest

/-- The signs after the bar of a literal block: its indentation, and how it ends. -/
def literalSigns (s : List Char) : List Char :=
  let hint := if (s.head?).any fun c => Style.isSpace c || isBreak c then ['2'] else []
  let ending :=
    match s.reverse with
    | last :: before =>
        if !isBreak last then ['-']
        else if (before.head?).all isBreak then ['+']
        else []
    | [] => ['-']
  hint ++ ending

/-- A text in single quotes; after a line break its lines are indented. -/
def singleQuoted (indent : Nat) (s : List Char) : List Char :=
  let body := (indentLines indent false s).flatMap fun c => if c == '\'' then [c, c] else [c]
  let last := if (s.getLast?).any isBreak then spaces indent else []
  '\'' :: body ++ last ++ ['\'']

def writeText (indent : Nat) (s : List Char) : List Char :=
  match Style.ofText s with
  | .plain => s
  | .single => singleQuoted indent s
  | .double => '"' :: s.flatMap escapeChar ++ ['"']
  | .literal => '|' :: literalSigns s ++ '\n' :: indentLines indent true s

def endLine (s : List Char) : List Char :=
  if (s.getLast?).any isBreak then s else s ++ ['\n']

/-- Whether a key stands before its value on one line: it is one line of at most 128 bytes. -/
def isShortKey (key : List Char) : Bool :=
  !key.any isBreak && Text.byteLength key ≤ 128

def writeKey (indent : Nat) (key : List Char) : List Char :=
  if isShortKey key then writeText (indent + 2) key ++ [':']
  else '?' :: ' ' :: endLine (writeText (indent + 2) key) ++ spaces indent ++ [':']

mutual

/--
The text of a value after the sign before it, which stands in a block with the
given indentation.  After a key, blocks start on a line of their own.
-/
def writeValue (indent : Nat) (afterKey : Bool) : Json → List Char
  | .null => " null".toList
  | .bool true => " true".toList
  | .bool false => " false".toList
  | .num n => ' ' :: writeNumber n
  | .str s => ' ' :: writeText (indent + 2) s.toList
  | .arr [] => " []".toList
  | .arr (item :: more) =>
      if afterKey then '\n' :: spaces indent ++ writeItems indent (item :: more)
      else ' ' :: writeItems (indent + 2) (item :: more)
  | .obj [] => " \x7b\x7d".toList
  | .obj (member :: more) =>
      if afterKey then '\n' :: spaces (indent + 2) ++ writeMembers (indent + 2) (member :: more)
      else ' ' :: writeMembers (indent + 2) (member :: more)

/-- The items of a sequence; the first one has its indentation before it. -/
def writeItems (indent : Nat) : List Json → List Char
  | [] => []
  | [item] => '-' :: writeValue indent false item
  | item :: more =>
      endLine ('-' :: writeValue indent false item) ++ spaces indent ++ writeItems indent more

def writeMembers (indent : Nat) : List (String × Json) → List Char
  | [] => []
  | [(key, value)] =>
      writeKey indent key.toList ++ writeValue indent (isShortKey key.toList) value
  | (key, value) :: more =>
      endLine (writeKey indent key.toList ++ writeValue indent (isShortKey key.toList) value) ++
        spaces indent ++ writeMembers indent more

end

/-- The text of a mapping with its members in the order given. -/
def writeMapping (members : List (String × Json)) : List Char :=
  if members.isEmpty then "\x7b\x7d\n".toList else endLine (writeMembers 0 members)

end Yaml

end UiMarkdown
