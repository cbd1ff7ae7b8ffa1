import UiMarkdown.Text.Chars

/-!
# Reading positions in Yaml text

A cursor is the text that is left to read with the place it starts at.  Line
breaks come in several forms; all but the two separators read as a line feed.
-/

namespace UiMarkdown

namespace Yaml

/-- A place in a text: the text from there on, and line and column from zero. -/
structure Cursor where
  rest : List Char
  index : Nat := 0
  line : Nat := 0
  column : Nat := 0

def isBreak (c : Char) : Bool :=
  c == '\r' || c == '\n' || c == '\u0085' || c == '\u2028' || c == '\u2029'

def isWordChar (c : Char) : Bool :=
  c.isAlphanum || c == '_' || c == '-'

def isAllowed (c : Char) : Bool :=
  let n := c.toNat
  n == 9 || n == 10 || n == 13 || (0x20 ≤ n && n ≤ 0x7E) || n == 0x85 ||
    (0xA0 ≤ n && n ≤ 0xD7FF) || (0xE000 ≤ n && n ≤ 0xFFFD) || 0x10000 ≤ n

namespace Cursor

def atEnd (cursor : Cursor) : Bool :=
  cursor.rest.isEmpty

def peek? (cursor : Cursor) (distance : Nat) : Option Char :=
  cursor.rest[distance]?

def isAt (cursor : Cursor) (c : Char) : Bool :=
  cursor.rest.head? == some c

/-- Whether the character at a distance satisfies `p`; the end of the text does not. -/
def holds (cursor : Cursor) (p : Char → Bool) (distance : Nat := 0) : Bool :=
  (cursor.peek? distance).any p

/-- Whether a space, a tab, a line break or the end of the text is at a distance. -/
def isGap (cursor : Cursor) (distance : Nat := 0) : Bool :=
  (cursor.peek? distance).all fun c => Text.isSpaceOrTab c || isBreak c

def isLineEnd (cursor : Cursor) : Bool :=
  (cursor.peek? 0).all isBreak

/-- Pass over a number of characters that break no line. -/
def skip (cursor : Cursor) (count : Nat := 1) : Cursor :=
  { cursor with
    rest := cursor.rest.drop count
    index := cursor.index + count
    column := cursor.column + count }

/-- Pass over the longest run of characters that satisfy `p`, none of which breaks a line. -/
def skipWhile (cursor : Cursor) (p : Char → Bool) : Cursor :=
  cursor.skip (cursor.rest.takeWhile p).length

/-- The longest run of characters that satisfy `p`, none of which breaks a line. -/
def takeWhile (cursor : Cursor) (p : Char → Bool) : List Char × Cursor :=
  (cursor.rest.takeWhile p, cursor.skipWhile p)

/-- Read a line break if there is one; with the text that it stands for. -/
def readBreak (cursor : Cursor) : List Char × Cursor :=
  let next (count : Nat) : Cursor :=
    ⟨cursor.rest.drop count, cursor.index + count, cursor.line + 1, 0⟩
  match cursor.rest with
  | '\r' :: '\n' :: _ => (['\n'], next 2)
  | c :: _ =>
      if c == '\u2028' || c == '\u2029' then ([c], next 1)
      else if isBreak c then (['\n'], next 1)
      else ([], cursor)
  | [] => ([], cursor)

def skipBreak (cursor : Cursor) : Cursor :=
  cursor.readBreak.2

/-- Whether three equal characters and a gap stand at the start of a line. -/
def isMarker (cursor : Cursor) (c : Char) : Bool :=
  cursor.column == 0 && [c, c, c].isPrefixOf cursor.rest && cursor.isGap 3

def isDocumentMarker (cursor : Cursor) : Bool :=
  cursor.isMarker '-' || cursor.isMarker '.'

end Cursor

end Yaml

end UiMarkdown
