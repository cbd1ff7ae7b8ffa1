import UiMarkdown.Text.Chars

/-!
# Starts of blocks

What the text of a line, without its indentation, says about the block that it
starts or ends.
-/

namespace UiMarkdown

namespace Markdown

def isGap (s : List Char) : Bool :=
  s.all Text.isSpaceOrTab

/-- The level of the heading that a line starts, and the length of its mark with its gap. -/
def headingStart? (s : List Char) : Option (Nat × Nat) :=
  let level := (s.takeWhile (· == '#')).length
  let rest := s.drop level
  let gap := (rest.takeWhile Text.isSpaceOrTab).length
  if 1 ≤ level && level ≤ 6 && (rest.isEmpty || 0 < gap) then some (level, level + gap)
  else none

def headingText (s : List Char) : List Char :=
  let text := Text.dropEnd Text.isAsciiBlank s
  let opened := Text.dropEnd (· == '#') text
  if opened.isEmpty then []
  else if opened.length < text.length && (opened.getLast?).any Text.isSpaceOrTab then
    Text.dropEnd Text.isAsciiBlank opened
  else text

/-- The level of the heading that a line turns the lines before it into. -/
def underline? (s : List Char) : Option Nat :=
  if s.head? == some '=' && isGap (s.dropWhile (· == '=')) then some 1
  else if s.head? == some '-' && isGap (s.dropWhile (· == '-')) then some 2
  else none

def fenceStart? (s : List Char) : Option (Char × Nat) :=
  match s with
  | [] => none
  | c :: _ =>
      let length := (s.takeWhile (· == c)).length
      if length < 3 then none
      else if c == '~' || (c == '\x60' && !(s.drop length).contains c) then some (c, length)
      else none

def closesFence (mark : Char) (length : Nat) (s : List Char) : Bool :=
  length ≤ (s.takeWhile (· == mark)).length && isGap (s.dropWhile (· == mark))

def isRule (s : List Char) : Bool :=
  match s with
  | [] => false
  | c :: _ =>
      (c == '*' || c == '_' || c == '-') && 3 ≤ s.count c &&
        s.all fun d => d == c || Text.isSpaceOrTab d

/-- What the items of one list have in common. -/
structure ListMark where
  ordered : Bool
  mark : Char
  deriving DecidableEq, Repr

/--
The mark of the list item that a line starts, with its number and its length.
An item that interrupts a paragraph has text on its first line, and its number
is one.
-/
def itemStart? (inParagraph : Bool) (s : List Char) : Option (ListMark × Nat × Nat) :=
  let mayStart (after : List Char) : Bool :=
    (after.head?).all Text.isAsciiBlank && !(inParagraph && isGap after)
  match s with
  | [] => none
  | c :: rest =>
      if c == '*' || c == '-' || c == '+' then
        if mayStart rest then some (⟨false, c⟩, 1, 1) else none
      else
        let digits := (s.take 9).takeWhile Char.isDigit
        let number := digits.foldl (fun n c => n * 10 + (c.toNat - 48)) 0
        match s.drop digits.length with
        | mark :: after =>
            if !digits.isEmpty && (mark == '.' || mark == ')') && !(inParagraph && number != 1) &&
                mayStart after then
              some (⟨true, mark⟩, number, digits.length + 1)
            else none
        | [] => none

end Markdown

end UiMarkdown
