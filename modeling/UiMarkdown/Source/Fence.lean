import UiMarkdown.Text.Chars

/-!
# Fences

A fence is a line of at least three backticks or tildes, indented by at most
three spaces.  What follows an opening fence is its info; a closing fence is as
long as the opening one and nothing follows it.  The block parser lets a fence
end a paragraph, but a directive is never meant to belong to one, so a blank
line is put before an opening fence that follows other text.
-/

namespace UiMarkdown

/-- The character of a fence and the number of its repetitions. -/
structure Fence where
  mark : Char
  size : Nat
  deriving DecidableEq, Repr

namespace Fence

def read? (line : List Char) : Option (Fence × List Char) :=
  let indent := line.takeWhile (· == ' ')
  if 3 < indent.length then none
  else
    match line.dropWhile (· == ' ') with
    | [] => none
    | c :: rest =>
        if c == '\x60' || c == '~' then
          let size := (rest.takeWhile (· == c)).length + 1
          if 3 ≤ size then some (⟨c, size⟩, rest.dropWhile (· == c)) else none
        else none

/-- The fence that a line opens.  The info of a backtick fence has no backtick. -/
def opening? (line : List Char) : Option Fence :=
  match read? line with
  | some (fence, info) => if fence.mark == '\x60' && info.contains '\x60' then none else some fence
  | none => none

def closedBy (fence : Fence) (line : List Char) : Bool :=
  match read? line with
  | some (other, rest) =>
      other.mark == fence.mark && fence.size ≤ other.size && Text.allBlank rest
  | none => false

def after (opened : Option Fence) (line : List Char) : Option Fence :=
  match opened with
  | some fence => if fence.closedBy line then none else some fence
  | none => opening? line

/-- Whether a line opens a fence right after text. -/
def needsGap (opened : Option Fence) (afterBlank : Bool) (line : List Char) : Bool :=
  opened.isNone && (opening? line).isSome && !afterBlank

/-- Put blank lines before opening fences; lines come with their ends. -/
def separateLines : (opened : Option Fence) → (afterBlank : Bool) → List (List Char) →
    List (List Char)
  | _, _, [] => []
  | opened, afterBlank, line :: rest =>
      let content := Text.dropLineEnds line
      let more := separateLines (after opened content) (Text.allBlank content) rest
      if needsGap opened afterBlank content then ['\n'] :: line :: more else line :: more

/-- Put a blank line before every opening fence that follows text. -/
def separate (s : List Char) : List Char :=
  (separateLines none true (Text.linesWithEnds s)).flatten

end Fence

end UiMarkdown
