import UiMarkdown.Json.Basic
import UiMarkdown.Number.Decimal

/-!
# Json text

The text of a value without any white space.  Only the characters that Json
forbids inside a text are escaped.
-/

namespace UiMarkdown

namespace Number

/--
Numbers from `1e-5` up to but not including `1e16` are positional, and a
positive exponent has its sign.
-/
def layout : FloatLayout := ⟨-5, 16, true⟩

def text : Number → List Char
  | .int i => FloatLayout.integer i
  | .float x => layout.render x

end Number

namespace Json

def hexDigit (n : Nat) : Char :=
  Nat.digitChar n

def escapeChar (c : Char) : List Char :=
  if c == '"' then ['\\', '"']
  else if c == '\\' then ['\\', '\\']
  else if c == '\n' then ['\\', 'n']
  else if c == '\r' then ['\\', 'r']
  else if c == '\t' then ['\\', 't']
  else if c == '\x08' then ['\\', 'b']
  else if c == '\x0c' then ['\\', 'f']
  else if c.toNat < 0x20 then
    ['\\', 'u', '0', '0', hexDigit (c.toNat / 16), hexDigit (c.toNat % 16)]
  else [c]

def writeString (s : String) : List Char :=
  '"' :: s.toList.flatMap escapeChar ++ ['"']

mutual

def write : Json → List Char
  | .null => ['n', 'u', 'l', 'l']
  | .bool true => ['t', 'r', 'u', 'e']
  | .bool false => ['f', 'a', 'l', 's', 'e']
  | .num n => n.text
  | .str s => writeString s
  | .arr items => '[' :: writeItems items ++ [']']
  | .obj members => '\x7b' :: writeMembers members ++ ['\x7d']

def writeItems : List Json → List Char
  | [] => []
  | [item] => write item
  | item :: more => write item ++ ',' :: writeItems more

def writeMembers : List (String × Json) → List Char
  | [] => []
  | [(key, value)] => writeString key ++ ':' :: write value
  | (key, value) :: more => writeString key ++ ':' :: write value ++ ',' :: writeMembers more

end

def render (value : Json) : String :=
  String.ofList value.write

end Json

end UiMarkdown
