import UiMarkdown.Markdown.Angle
import UiMarkdown.Markdown.Emphasis
import UiMarkdown.Markdown.Target

/-!
# Running text

The text of a paragraph, a heading or a cell is read from left to right.
Brackets that are open divide it into levels; the innermost one is closed
first, into a link or an image, or else back into text.
-/

namespace UiMarkdown

namespace Markdown

/-- An open bracket, with the text after it and the parts before it, nearest first. -/
structure Bracket where
  image : Bool
  inside : List Char
  outside : List Piece
  nested : Bool := false

def Bracket.toPiece (bracket : Bracket) : Piece :=
  .node (.text (if bracket.image then ['!', '['] else ['[']))

/--
The state of reading: the characters read and the parts since the innermost
open bracket, both nearest first; the open brackets, innermost first; whether a
link has been closed since a bracket was last opened; the runs of backticks
met by length and place, and whether a search has passed all of them; and
whether a comment without end has been met.
-/
structure Reading where
  seen : List Char := []
  parts : List Piece := []
  brackets : List Bracket := []
  linkClosed : Bool := false
  ticks : List (Nat × Nat) := []
  allTicks : Bool := false
  openComment : Bool := false

/-- What running text depends on: whether strokes count, and the definitions. -/
structure Setting where
  strokes : Bool
  definitions : Definitions

namespace Reading

def push (reading : Reading) (inline : Inline) : Reading :=
  { reading with parts := .node inline :: reading.parts }

def pushText (reading : Reading) (s : List Char) : Reading :=
  reading.push (.text s)

def openBracket (reading : Reading) (image : Bool) (inside : List Char) : Reading :=
  { reading with
    brackets :=
      { image, inside, outside := reading.parts } ::
        match reading.brackets with
        | [] => []
        | outer :: more => { outer with nested := true } :: more
    parts := []
    linkClosed := reading.linkClosed && image }

def dropBracket (reading : Reading) : Reading :=
  match reading.brackets with
  | [] => reading
  | bracket :: more =>
      { reading with
        brackets := more
        parts := reading.parts ++ bracket.toPiece :: bracket.outside }

def closeBracket (reading : Reading) (target : Target) : Reading :=
  match reading.brackets with
  | [] => reading
  | bracket :: more =>
      let content := emphasise reading.parts.reverse
      let node := if bracket.image then Inline.image target content else .link target content
      { reading with
        brackets := more
        parts := .node node :: bracket.outside
        linkClosed := reading.linkClosed || !bracket.image }

def allParts (reading : Reading) : List Piece :=
  (reading.brackets.foldl (fun parts bracket => parts ++ bracket.toPiece :: bracket.outside)
    reading.parts).reverse

end Reading

def readTarget? : List Char → Option (Target × List Char)
  | '(' :: s => do
      let (url, afterUrl) ← readUrl? (s.dropWhile Text.isAsciiBlank)
      let beforeTitle := afterUrl.dropWhile Text.isAsciiBlank
      let title? := if beforeTitle.length < afterUrl.length then readTitle? beforeTitle else none
      let (title, afterTitle) := title?.getD ([], beforeTitle)
      let rest ← afterChar? ')' (afterTitle.dropWhile Text.isAsciiBlank)
      return (.ofSource url title, rest)
  | _ => none

/--
The target of a label after the text of a link, and what follows.  Without a
label, or with an empty one, the text is the label, unless it has brackets.
-/
def findTarget? (setting : Setting) (bracket : Bracket) (rest : List Char) :
    Option (Target × List Char) := do
  let own := bracket.inside.take (bracket.inside.length - rest.length - 1)
  let (label, after) ←
    match readLabel? rest with
    | some (label, after) =>
        some (if label.isEmpty && !bracket.nested then own else label, after)
    | none => if bracket.nested then none else some (own, rest)
  let target ← setting.definitions.lookup (normalLabel label)
  return (target, after)

def tickRuns : (place : Nat) → List Char → List (Nat × Nat)
  | _, [] => []
  | place, c :: rest =>
      let more := tickRuns (place + 1) rest
      if c == '\x60' then
        match more with
        | (next, length) :: others =>
            if next == place + 1 then (place, length + 1) :: others else (place, 1) :: more
        | [] => [(place, 1)]
      else more

/-- The content of a code span: line ends are spaces, and one space at both ends goes. -/
def codeContent (s : List Char) : List Char :=
  let flat := s.map fun c => if c == '\n' then ' ' else c
  if s.any (· != ' ') && 1 < flat.length && flat.head? == some ' ' && flat.getLast? == some ' '
  then (flat.drop 1).dropLast
  else flat

def isSpecial (strokes : Bool) (c : Char) : Bool :=
  c == '\n' || c == '\x60' || c == '\\' || c == '&' || c == '<' || c == '*' || c == '_' ||
    c == '[' || c == ']' || c == '!' || (strokes && c == '~')

/--
What follows a piece of Html after its opening bracket.  After a comment
without end, nothing with an exclamation mark is recognised.
-/
def afterHtml? (openComment : Bool) : List Char → Option (List Char)
  | '!' :: s =>
      if openComment then none
      else
        match s with
        | '-' :: '-' :: rest => afterHyphens? rest
        | '[' :: rest => ("CDATA[".toList.isPrefixOf? rest).bind afterData?
        | rest => afterDeclaration? rest
  | '?' :: rest => afterInstruction? rest
  | s => afterTag? s

namespace Reading

def readAngle (reading : Reading) (rest : List Char) : Reading × List Char :=
  let before (after : List Char) := rest.take (rest.length - after.length)
  match afterUri? rest with
  | some after =>
      let address := decodeEntities (before after).dropLast
      (reading.push (.link ⟨address, []⟩ [.text address]), after)
  | none =>
      match afterMail? rest with
      | some after =>
          let address := decodeEntities (before after).dropLast
          (reading.push (.link ⟨"mailto:".toList ++ address, []⟩ [.text address]), after)
      | none =>
          match afterHtml? reading.openComment rest with
          | some after => (reading.push (.html ('<' :: before after)), after)
          | none =>
              let openComment := reading.openComment || "!--".toList.isPrefixOf rest
              ({ reading with openComment }.pushText ['<'], rest)

/--
Read a run of backticks, which started at a place.  It starts a code span if a
run of the same length follows; once a search has passed all runs, one that
was last met before this place is not searched for again.
-/
def readTicks (reading : Reading) (place : Nat) (rest : List Char) : Reading × List Char :=
  let length := (rest.takeWhile (· == '\x60')).length + 1
  let text := rest.drop (length - 1)
  let literal := (reading.pushText (List.replicate length '\x60'), text)
  if 80 < length then literal
  else if reading.allTicks && (reading.ticks.lookup length).getD 0 ≤ place + length then literal
  else
    let runs := tickRuns (place + length) text
    let passed := runs.takeWhile (·.2 != length)
    let note (runs : List (Nat × Nat)) := (runs.map fun (spot, n) => (n, spot)).reverse
    match runs.drop passed.length with
    | (closing, _) :: _ =>
        let inside := closing - (place + length)
        let ticks := (length, closing) :: note passed ++ reading.ticks
        ({ reading with ticks }.push (.code (codeContent (text.take inside))),
          text.drop (inside + length))
    | [] =>
        let ticks := note runs ++ reading.ticks
        ({ reading with ticks, allTicks := true }.pushText (List.replicate length '\x60'), text)

def readDelimiters (reading : Reading) (strokes : Bool) (place : Nat) (mark : Char)
    (rest : List Char) : Reading × List Char :=
  let length := (rest.takeWhile (· == mark)).length + 1
  let after := rest.drop (length - 1)
  let neighbour (s : List Char) :=
    ((s.dropWhile fun c => strokes && c == '~').head?).getD '\n'
  let left := neighbour reading.seen
  let right := neighbour after
  let leftFlanking := !Text.isBlank right &&
    (!Text.isMark right || Text.isBlank left || Text.isMark left)
  let rightFlanking := !Text.isBlank left &&
    (!Text.isMark left || Text.isBlank right || Text.isMark right)
  let opens := leftFlanking && (mark != '_' || !rightFlanking || Text.isMark left)
  let closes := rightFlanking && (mark != '_' || !leftFlanking || Text.isMark right)
  let run : Delimiter := { mark, length, left := length, opens, closes, place }
  if (opens || closes) && !(mark == '~' && 2 < length) then
    ({ reading with parts := .run run :: reading.parts }, after)
  else (reading.push run.toInline, after)

def readClosing (reading : Reading) (setting : Setting) (rest : List Char) :
    Reading × List Char :=
  match reading.brackets with
  | [] => (reading.pushText [']'], rest)
  | bracket :: _ =>
      if !bracket.image && reading.linkClosed then (reading.dropBracket.pushText [']'], rest)
      else
        match readTarget? rest <|> findTarget? setting bracket rest with
        | some (target, after) => (reading.closeBracket target, after)
        | none => (reading.dropBracket.pushText [']'], rest)

def readText (reading : Reading) (strokes : Bool) (s : List Char) : Reading × List Char :=
  let text := s.takeWhile fun c => !isSpecial strokes c
  let after := s.drop text.length
  let text := if after.head? == some '\n' then Text.dropEnd Text.isAsciiBlank text else text
  let text :=
    match reading.parts with
    | .node .hardBreak :: _ => text.dropWhile Text.isAsciiBlank
    | _ => text
  (reading.pushText text, after)

/-- Read what starts with a character at a place; the second result is what follows. -/
def step (reading : Reading) (setting : Setting) (place : Nat) (c : Char) (rest : List Char) :
    Reading × List Char :=
  match c with
  | '\n' =>
      let spaced := [' ', ' '].isPrefixOf reading.seen
      (reading.push (if spaced then .hardBreak else .softBreak), skipSpaces rest)
  | '\x60' => reading.readTicks place rest
  | '\\' =>
      match rest with
      | d :: after =>
          if Text.isAsciiMark d then (reading.pushText [d], after)
          else if d == '\n' then (reading.push .hardBreak, after)
          else (reading.pushText [c], rest)
      | [] => (reading.pushText [c], rest)
  | '&' =>
      match entity? rest with
      | some (chars, after) => (reading.pushText chars, after)
      | none => (reading.pushText [c], rest)
  | '<' => reading.readAngle rest
  | '[' => (reading.openBracket false rest, rest)
  | ']' => reading.readClosing setting rest
  | '!' =>
      match rest with
      | '[' :: inside =>
          if inside.head? == some '^' then (reading.pushText [c], rest)
          else (reading.openBracket true inside, inside)
      | _ => (reading.pushText [c], rest)
  | _ =>
      if c == '*' || c == '_' || (setting.strokes && c == '~') then
        reading.readDelimiters setting.strokes place c rest
      else reading.readText setting.strokes (c :: rest)

def readAll (reading : Reading) (setting : Setting) (place : Nat) (s : List Char) : Reading :=
  match s with
  | [] => reading
  | c :: rest =>
      let (reading, after) := reading.step setting place c rest
      let count := rest.length - after.length
      readAll { reading with seen := (rest.take count).reverse ++ c :: reading.seen } setting
        (place + count + 1) (rest.drop count)
termination_by s.length

end Reading

def Inline.ofText (setting : Setting) (s : List Char) : List Inline :=
  let reading : Reading := {}
  emphasise (reading.readAll setting 0 (Text.dropEnd Text.isAsciiBlank s)).allParts

def leadingText : List Inline → List Char × List Inline
  | .text value :: rest =>
      let (more, after) := leadingText rest
      (value ++ more, after)
  | rest => ([], rest)

def takeTask? (content : List Inline) : Option (Bool × List Inline) :=
  let (text, rest) := leadingText content
  match text.dropWhile Text.isAsciiBlank with
  | '[' :: c :: ']' :: after =>
      if (c == ' ' || c == 'x' || c == 'X') && (after.head?).all Text.isAsciiBlank then
        some (c != ' ', .text (after.drop 1) :: rest)
      else none
  | _ => none

end Markdown

end UiMarkdown
