import UiMarkdown.Markdown.EntityTable
import UiMarkdown.Text.Chars
import UiMarkdown.Text.Mark

/-!
# Characters in disguise

An entity stands for characters by name or by number, and a backslash takes
the meaning from a punctuation character.
-/

namespace UiMarkdown

namespace Markdown

/-- The character with a number; a number without a character gives the replacement character. -/
def numbered (n : Nat) : Char :=
  if h : n.isValidChar ∧ n ≠ 0 then Char.ofNatAux n h.1 else '\uFFFD'

/-- A number in some base with at most so many digits, and what follows its semicolon. -/
def numberedEntity? (base limit : Nat) (s : List Char) : Option (List Char × List Char) :=
  let digits := s.takeWhile fun c => (Text.hexValue? c).any (· < base)
  match s.drop digits.length with
  | ';' :: rest =>
      if digits.isEmpty || digits.length > limit then none
      else
        some ([numbered (digits.foldl (fun n c => n * base + (Text.hexValue? c).getD 0) 0)], rest)
  | _ => none

/--
What the text after an ampersand stands for, with the text after the
semicolon.  A decimal number has at most seven digits, a hexadecimal one six,
and a name at most thirty one characters.
-/
def entity? : List Char → Option (List Char × List Char)
  | '#' :: 'x' :: rest => numberedEntity? 16 6 rest
  | '#' :: 'X' :: rest => numberedEntity? 16 6 rest
  | '#' :: rest => numberedEntity? 10 7 rest
  | s =>
      let name := (s.take 32).takeWhile (· != ';')
      match s.drop name.length with
      | ';' :: rest => (namedChars? name).map fun chars => (chars, rest)
      | _ => none

/-- Put characters for the entities of a text, after passing over some characters. -/
def decodeAfter : Nat → List Char → List Char
  | _, [] => []
  | skip + 1, _ :: rest => decodeAfter skip rest
  | 0, c :: rest =>
      match if c == '&' then entity? rest else none with
      | some (chars, after) => chars ++ decodeAfter (rest.length - after.length) rest
      | none => c :: decodeAfter 0 rest

def decodeEntities (s : List Char) : List Char :=
  decodeAfter 0 s

def unescape : List Char → List Char
  | '\\' :: c :: rest =>
      if Text.isAsciiMark c then c :: unescape rest else '\\' :: unescape (c :: rest)
  | c :: rest => c :: unescape rest
  | [] => []

def plain (s : List Char) : List Char :=
  unescape (decodeEntities s)

end Markdown

end UiMarkdown
