import UiMarkdown.Text.Chars

/-!
# Rows of tables

A row is cut into cells at bars that have no backslash before them.  Bars at
either end of the row are optional.
-/

namespace UiMarkdown

namespace Markdown

def isRowBlank (c : Char) : Bool :=
  Text.isSpaceOrTab c || c == '\x0b' || c == '\x0c'

def unescapeBars : List Char → List Char
  | '\\' :: '|' :: rest => '|' :: unescapeBars rest
  | c :: rest => c :: unescapeBars rest
  | [] => []

def cutCell : (escaped : Bool) → List Char → List Char × Option (List Char)
  | _, [] => ([], none)
  | escaped, c :: rest =>
      if c == '|' && !escaped then ([], some rest)
      else
        let (cell, after) := cutCell (c == '\\') rest
        (c :: cell, after)

def cellsFrom : (fuel : Nat) → List Char → List (List Char)
  | 0, _ => []
  | fuel + 1, s =>
      if s.isEmpty then []
      else
        let (cell, after) := cutCell false s
        Text.trimAscii (unescapeBars cell) ::
          match after with
          | some rest => cellsFrom fuel (rest.dropWhile isRowBlank)
          | none => []

def rowCells (line : List Char) : List (List Char) :=
  match line with
  | '|' :: rest => cellsFrom line.length (rest.dropWhile isRowBlank)
  | _ => cellsFrom line.length line

/-- Whether a text is a column of a delimiter row: hyphens, and colons at its ends. -/
def isColumnMark (s : List Char) : Bool :=
  let s := Text.dropEnd isRowBlank (s.dropWhile isRowBlank)
  let hyphens := if s.head? == some ':' then s.tail else s
  let hyphens := if hyphens.getLast? == some ':' then hyphens.dropLast else hyphens
  !hyphens.isEmpty && hyphens.all (· == '-')

def isDelimiterRow (line : List Char) : Bool :=
  let columns := if line.head? == some '|' then line.tail else line
  let columns := Text.dropEnd isRowBlank columns
  let columns := if columns.getLast? == some '|' then columns.dropLast else columns
  (columns.splitOn '|').all isColumnMark

/--
The cells of the last line of a paragraph, and the text before that line.
-/
def headerCells (content : List Char) : List (List Char) × List Char :=
  let lines := Text.linesWithEnds content
  (rowCells (Text.dropLineFeed (lines.getLast?.getD [])), lines.dropLast.flatten)

def fitCells (columns : Nat) (cells : List (List Char)) : List (List Char) :=
  cells.take columns ++ List.replicate (columns - cells.length) []

end Markdown

end UiMarkdown
