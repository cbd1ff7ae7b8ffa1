import UiMarkdown.Yaml.Cursor

/-!
# Scalars in Yaml text

Scalars come plain, between quotes, or as indented blocks.  Inside the first
two a single line break reads as a space and further ones as themselves.
-/

namespace UiMarkdown

namespace Yaml

/--
White space between two words of a scalar: the blanks before the first line
break, that break, and the further breaks.
-/
structure Gap where
  blanks : List Char := []
  first : List Char := []
  more : List Char := []
  broken : Bool := false

namespace Gap

def text (gap : Gap) : List Char :=
  if gap.broken then
    if gap.first == ['\n'] then
      if gap.more.isEmpty then [' '] else gap.more
    else gap.first ++ gap.more
  else gap.blanks

/--
Read blanks and line breaks.  Before the column `indent` a tab at the start of
a line is an error.
-/
def read? (indent : Nat) : (fuel : Nat) → Gap → Cursor → Option (Gap × Cursor)
  | 0, gap, cursor => some (gap, cursor)
  | fuel + 1, gap, cursor =>
      if cursor.holds Text.isSpaceOrTab then
        if gap.broken && cursor.column < indent && cursor.isAt '\t' then none
        else
          let blanks := if gap.broken then [] else cursor.rest.take 1
          read? indent fuel { gap with blanks := gap.blanks ++ blanks } cursor.skip
      else if cursor.holds isBreak then
        let (text, next) := cursor.readBreak
        let gap : Gap :=
          if gap.broken then { gap with more := gap.more ++ text }
          else { gap with blanks := [], first := text, broken := true }
        read? indent fuel gap next
      else some (gap, cursor)

end Gap

namespace Cursor

def isFlowIndicator (c : Char) : Bool :=
  c == ',' || c == '[' || c == ']' || c == '\x7b' || c == '\x7d'

/--
The characters of a plain scalar up to the next gap or indicator, in reverse.
Between brackets a colon before an indicator is an error.
-/
def plainWord? (flow : Bool) : (fuel : Nat) → (word : List Char) → Cursor →
    Option (List Char × Cursor)
  | 0, word, cursor => some (word, cursor)
  | fuel + 1, word, cursor =>
      match cursor.rest with
      | [] => some (word, cursor)
      | c :: _ =>
          if cursor.isGap then some (word, cursor)
          else if flow && c == ':' && cursor.holds (fun d => isFlowIndicator d || d == '?') 1 then
            none
          else if (c == ':' && cursor.isGap 1) || (flow && isFlowIndicator c) then
            some (word, cursor)
          else plainWord? flow fuel (c :: word) cursor.skip

/--
A plain scalar, read word by word: the text, whether line breaks follow it, and
the place after those.
-/
def plain? (flow : Bool) (indent : Nat) : (fuel : Nat) → (text : List Char) → Gap → Cursor →
    Option (List Char × Bool × Cursor)
  | 0, text, gap, cursor => some (text, gap.broken, cursor)
  | fuel + 1, text, gap, cursor =>
      if cursor.isDocumentMarker || cursor.isAt '#' then some (text, gap.broken, cursor)
      else
        match plainWord? flow (cursor.rest.length + 1) [] cursor with
        | none => none
        | some (word, cursor) =>
            let (text, gap) :=
              if word.isEmpty then (text, gap) else (text ++ gap.text ++ word.reverse, {})
            if cursor.holds fun c => Text.isSpaceOrTab c || isBreak c then
              match gap.read? indent (cursor.rest.length + 1) cursor with
              | none => none
              | some (gap, cursor) =>
                  if !flow && cursor.column < indent then some (text, gap.broken, cursor)
                  else plain? flow indent fuel text gap cursor
            else some (text, gap.broken, cursor)

def escape? (c : Char) : Option Char :=
  match c with
  | '0' => some '\x00'
  | 'a' => some '\x07'
  | 'b' => some '\x08'
  | 't' => some '\t'
  | '\t' => some '\t'
  | 'n' => some '\n'
  | 'v' => some '\x0b'
  | 'f' => some '\x0c'
  | 'r' => some '\r'
  | 'e' => some '\x1b'
  | ' ' => some ' '
  | '"' => some '"'
  | '/' => some '/'
  | '\\' => some '\\'
  | 'N' => some '\u0085'
  | '_' => some '\u00a0'
  | 'L' => some '\u2028'
  | 'P' => some '\u2029'
  | _ => none

def codeLength? (c : Char) : Option Nat :=
  if c == 'x' then some 2 else if c == 'u' then some 4 else if c == 'U' then some 8 else none

def hexNumber? (digits : List Char) : Option Nat :=
  digits.foldlM (fun n c => (Text.hexValue? c).map (n * 16 + ·)) 0

def readEscape? (cursor : Cursor) : Option (Char × Cursor) :=
  match cursor.rest with
  | [] => none
  | c :: rest =>
      match escape? c with
      | some image => some (image, cursor.skip)
      | none =>
          match codeLength? c with
          | none => none
          | some size =>
              let digits := rest.take size
              match hexNumber? digits with
              | none => none
              | some n =>
                  if digits.length == size && n.isValidChar then
                    some (Char.ofNat n, cursor.skip (size + 1))
                  else none

/--
The characters of a quoted scalar up to the next gap or the closing quote, in
reverse; with whether an escaped line break ended them.
-/
def quotedWord? (single : Bool) : (fuel : Nat) → (word : List Char) → Cursor →
    Option (List Char × Bool × Cursor)
  | 0, word, cursor => some (word, false, cursor)
  | fuel + 1, word, cursor =>
      if cursor.isGap then some (word, false, cursor)
      else
        match cursor.rest with
        | [] => some (word, false, cursor)
        | c :: _ =>
            if single then
              if c == '\'' then
                if cursor.peek? 1 == some '\'' then
                  quotedWord? single fuel ('\'' :: word) (cursor.skip 2)
                else some (word, false, cursor)
              else quotedWord? single fuel (c :: word) cursor.skip
            else if c == '"' then some (word, false, cursor)
            else if c == '\\' then
              if cursor.holds isBreak 1 then some (word, true, cursor.skip.skipBreak)
              else
                match cursor.skip.readEscape? with
                | some (image, cursor) => quotedWord? single fuel (image :: word) cursor
                | none => none
            else quotedWord? single fuel (c :: word) cursor.skip

/-- A quoted scalar after its opening quote, read word by word, and the place after it. -/
def quoted? (single : Bool) : (fuel : Nat) → (text : List Char) → Cursor →
    Option (List Char × Cursor)
  | 0, _, _ => none
  | fuel + 1, text, cursor =>
      if cursor.isDocumentMarker || cursor.atEnd then none
      else
        match quotedWord? single (cursor.rest.length + 1) [] cursor with
        | none => none
        | some (word, joined, cursor) =>
            let text := text ++ word.reverse
            if cursor.isAt (if single then '\'' else '"') then some (text, cursor.skip)
            else
              match Gap.read? 0 (cursor.rest.length + 1) { broken := joined } cursor with
              | none => none
              | some (gap, cursor) => quoted? single fuel (text ++ gap.text) cursor

/-- What happens to the line breaks at the end of a block scalar. -/
inductive Chomping where
  | strip
  | clip
  | keep
  deriving DecidableEq

def chompingOf? (c : Char) : Option Chomping :=
  if c == '+' then some .keep else if c == '-' then some .strip else none

def indentationOf? (c : Char) : Option Nat :=
  if c.isDigit then some (c.toNat - 48) else none

/-- Chomping and indentation at the head of a block scalar, in either order. -/
def blockHead? (cursor : Cursor) : Option (Chomping × Nat × Cursor) :=
  let finish (chomping : Chomping) (indentation : Option Nat) (cursor : Cursor) :=
    if indentation == some 0 then none
    else some (chomping, indentation.getD 0, cursor)
  match cursor.rest with
  | c :: rest =>
      match chompingOf? c with
      | some chomping =>
          match rest.head?.bind indentationOf? with
          | some n => finish chomping (some n) (cursor.skip 2)
          | none => finish chomping none cursor.skip
      | none =>
          match indentationOf? c with
          | some n =>
              match rest.head?.bind chompingOf? with
              | some chomping => finish chomping (some n) (cursor.skip 2)
              | none => finish .clip (some n) cursor.skip
          | none => finish .clip none cursor
  | [] => finish .clip none cursor

/--
Read the empty lines before a line of a block scalar.  With the indentation
still unknown, which zero stands for, the deepest of their columns is kept.  A
tab in the indentation is an error.
-/
def blockBreaks? (indent : Nat) :
    (fuel : Nat) → (deepest : Nat) → (breaks : List Char) → Cursor →
    Option (Nat × List Char × Cursor)
  | 0, _, _, _ => none
  | fuel + 1, deepest, breaks, cursor =>
      let spaces := (cursor.rest.takeWhile (· == ' ')).length
      let used := if indent == 0 then spaces else min spaces (indent - cursor.column)
      let cursor := cursor.skip used
      let deepest := max deepest cursor.column
      if (indent == 0 || cursor.column < indent) && cursor.isAt '\t' then none
      else if cursor.holds isBreak then
        let (text, cursor) := cursor.readBreak
        blockBreaks? indent fuel deepest (breaks ++ text) cursor
      else some (deepest, breaks, cursor)

structure BlockGap where
  first : List Char := []
  more : List Char := []
  afterBlank : Bool := false

/-- The lines of a block scalar at a known indentation, with what follows the last one. -/
def blockLines? (literal : Bool) (indent : Nat) :
    (fuel : Nat) → (text : List Char) → BlockGap → Cursor →
    Option (List Char × BlockGap × Cursor)
  | 0, _, _, _ => none
  | fuel + 1, text, gap, cursor =>
      if cursor.column == indent && !cursor.atEnd then
        let blank := cursor.holds Text.isSpaceOrTab
        let before :=
          if !literal && gap.first == ['\n'] && !gap.afterBlank && !blank then
            if gap.more.isEmpty then [' '] else gap.more
          else gap.first ++ gap.more
        let (line, cursor) := cursor.takeWhile (!isBreak ·)
        let (first, cursor) := cursor.readBreak
        match blockBreaks? indent (cursor.rest.length + 1) 0 [] cursor with
        | none => none
        | some (_, more, cursor) =>
            blockLines? literal indent fuel (text ++ before ++ line) ⟨first, more, blank⟩ cursor
      else some (text, gap, cursor)

def block? (literal : Bool) (parent : Int) (cursor : Cursor) : Option (List Char × Cursor) := do
  let (chomping, increment, cursor) ← cursor.blockHead?
  let cursor := cursor.skipWhile Text.isSpaceOrTab
  let cursor := if cursor.isAt '#' then cursor.skipWhile (!isBreak ·) else cursor
  if !cursor.isLineEnd then none
  else
    let cursor := cursor.skipBreak
    let indent := if increment == 0 then 0 else (max parent 0 + increment).toNat
    let (deepest, breaks, cursor) ← blockBreaks? indent (cursor.rest.length + 1) 0 [] cursor
    let indent := if indent == 0 then max deepest (max (parent + 1) 1).toNat else indent
    let (text, gap, cursor) ←
      blockLines? literal indent (cursor.rest.length + 1) [] { more := breaks } cursor
    return match chomping with
      | .strip => (text, cursor)
      | .clip => (text ++ gap.first, cursor)
      | .keep => (text ++ gap.first ++ gap.more, cursor)

end Cursor

end Yaml

end UiMarkdown
