import UiMarkdown.Text.Chars

/-!
# Lines and columns

Blocks nest by indentation, which is measured in columns: a tab leads to the
next multiple of four.  A container may use up a tab in part; what is left of it
then counts as spaces.
-/

namespace UiMarkdown

namespace Markdown

/-- A text with a line feed for every line end, and with a mark for every null character. -/
def unifyLineEnds : List Char → List Char
  | '\r' :: '\n' :: rest => '\n' :: unifyLineEnds rest
  | '\r' :: rest => '\n' :: unifyLineEnds rest
  | c :: rest => (if c == '\x00' then '\uFFFD' else c) :: unifyLineEnds rest
  | [] => []

/-- The lines of a text; a byte order mark at its start is no part of them. -/
def textLines (s : List Char) : List (List Char) :=
  Text.lines (unifyLineEnds (if s.head? == some '\uFEFF' then s.tail else s))

/--
A place in a line: the text from there on, its column, and whether a container
has used up a part of the tab that comes next.
-/
structure Line where
  left : List Char
  column : Nat := 0
  inTab : Bool := false
  deriving Repr

/-- The columns that a tab fills from a column on. -/
def tabWidth (column : Nat) : Nat :=
  4 - column % 4

def blankWidth : (column : Nat) → List Char → Nat
  | _, [] => 0
  | column, c :: rest =>
      if c == ' ' then 1 + blankWidth (column + 1) rest
      else if c == '\t' then tabWidth column + blankWidth (column + tabWidth column) rest
      else 0

namespace Line

def indent (line : Line) : Nat :=
  blankWidth line.column line.left

def gap (line : Line) : Nat :=
  (line.left.takeWhile Text.isSpaceOrTab).length

def body (line : Line) : List Char :=
  line.left.dropWhile Text.isSpaceOrTab

def isBlank (line : Line) : Bool :=
  line.body.isEmpty

/-- The text at a place; what is left of a tab is written as spaces. -/
def text (line : Line) : List Char :=
  if line.inTab then List.replicate (tabWidth line.column) ' ' ++ line.left.tail else line.left

def skip : (count : Nat) → Line → Line
  | 0, line => line
  | count + 1, line =>
      match line.left with
      | [] => line
      | c :: rest =>
          let width := if c == '\t' then tabWidth line.column else 1
          skip count { left := rest, column := line.column + width }

def skipColumns (count : Nat) (line : Line) : Line :=
  go count line.left line.column line.inTab
where
  go : Nat → List Char → Nat → Bool → Line
    | 0, left, column, inTab => ⟨left, column, inTab⟩
    | _, [], column, inTab => ⟨[], column, inTab⟩
    | count + 1, c :: rest, column, _ =>
        if c == '\t' then
          if count + 1 < tabWidth column then ⟨c :: rest, column + count + 1, true⟩
          else go (count + 1 - tabWidth column) rest (column + tabWidth column) false
        else go count rest (column + 1) false

def skipGap (line : Line) : Line :=
  line.skip line.gap

def skipOptional (line : Line) : Line :=
  if (line.left.head?).any Text.isSpaceOrTab then line.skipColumns 1 else line

def toEnd (line : Line) : Line :=
  line.skip line.left.length

end Line

end Markdown

end UiMarkdown
