import UiMarkdown.Markdown.Draft
import UiMarkdown.Markdown.Row

/-!
# Reading blocks line by line

The open blocks form a chain from the document to the innermost block.  A line
first continues blocks of the chain from the outside, then may start new blocks
inside the last one continued, and what is left of it is text.
-/

namespace UiMarkdown

namespace Markdown

/--
The open blocks at some place of a line: the block that the rest of the line
belongs to, the blocks around it, innermost first, and the blocks inside it
that the line does not continue, outermost first.
-/
structure Spine where
  container : OpenBlock
  around : List OpenBlock
  inner : List OpenBlock
  definitions : Definitions

/-- What a line does to an open block. -/
inductive Continuation where
  | continued (line : Line)
  | ended
  | closed

def OpenBlock.continuation (block : OpenBlock) (hasInside : Bool) (line : Line) : Continuation :=
  match block.shape with
  | .document | .list _ _ | .rule => .continued line
  | .quote =>
      if line.indent ≤ 3 && line.body.head? == some '>' then
        .continued (line.skipColumns (line.indent + 1)).skipOptional
      else .ended
  | .item indent =>
      if indent ≤ line.indent then .continued (line.skipColumns indent)
      else if line.isBlank && hasInside then .continued line.skipGap
      else .ended
  | .paragraph _ _ => if line.isBlank then .ended else .continued line
  | .heading _ _ => .ended
  | .fenced mark length indent _ =>
      if line.indent ≤ 3 && closesFence mark length line.body then .closed
      else .continued (line.skipColumns (min indent line.indent))
  | .indented _ =>
      if 4 ≤ line.indent then .continued (line.skipColumns 4)
      else if line.isBlank then .continued line.skipGap
      else .ended
  | .html kind _ => if line.isBlank && kind.endsAtBlank then .ended else .continued line
  | .table _ _ => if (rowCells line.body).isEmpty then .ended else .continued line

/--
Follow a line from a block into the blocks inside it, as far as it continues
them.  The last result is whether it closed a fence.
-/
def follow (definitions : Definitions) (container : OpenBlock) (around : List OpenBlock) :
    (inner : List OpenBlock) → Line → Spine × Line × Bool
  | [], line => (⟨container, around, [], definitions⟩, line, false)
  | block :: inner, line =>
      match block.continuation (!block.inside.isEmpty || !inner.isEmpty) line with
      | .continued line => follow definitions block (container :: around) inner line
      | .ended => (⟨container, around, block :: inner, definitions⟩, line, false)
      | .closed => (⟨container, around, block :: inner, definitions⟩, line, true)

namespace Spine

def closeInner (spine : Spine) (last : Nat) : Spine :=
  let (draft?, definitions) := closeChain spine.definitions last spine.inner
  { spine with container := spine.container.push? draft?, inner := [], definitions }

/--
Make room for a block: close the blocks that the line does not continue, and
blocks that may not hold the new one.  Whether a list is tight is settled
before the blocks inside it are closed.
-/
def makeRoom (spine : Spine) (isItem : Bool) (last : Nat) : Spine :=
  if spine.container.holds isItem then spine.closeInner last
  else
    let tight := (spine.container.push? (chainDraft? spine.inner)).isTight
    let spine := spine.closeInner last
    match spine.around with
    | [] => spine
    | outer :: around =>
        let (draft?, definitions) := spine.container.close spine.definitions last tight
        { container := outer.push? draft?, around, inner := [], definitions }

def openBlock (spine : Spine) (shape : OpenShape) (number : Nat) : Spine :=
  let isItem := match shape with
    | .item _ => true
    | _ => false
  let spine := spine.makeRoom isItem (number - 1)
  { spine with
    container := { shape, first := number }
    around := spine.container :: spine.around }

def endsInParagraph (spine : Spine) : Bool :=
  (spine.inner.getLast?.getD spine.container).isParagraph

/-- Turn the paragraph that a line underlines into a heading, if it has text. -/
def underline (spine : Spine) (level : Nat) (content : List Char) (noTable : Bool)
    (line : Line) : Spine × Line :=
  let (definitions, content) := takeDefinitions spine.definitions content
  if startsBlank content then
    let container := { spine.container with shape := .paragraph content noTable }
    ({ spine with container, definitions }, line)
  else
    let container := { spine.container with shape := .heading level content }
    ({ spine with container, definitions }, line.toEnd)

/-- Open an item of a list, and the list unless the container is one that goes on. -/
def openItem (spine : Spine) (number : Nat) (mark : ListMark) (start length : Nat)
    (line : Line) : Spine × Line :=
  let after := line.skip (line.gap + length)
  let columns := min 6 after.indent
  let exact := 1 ≤ columns && columns < 5 && !after.isBlank
  let padding := if exact then columns else 1
  let after := if columns == 0 then after else after.skipColumns padding
  let goesOn := match spine.container.shape with
    | .list other _ => other == mark
    | _ => false
  let spine := if goesOn then spine else spine.openBlock (.list mark start) number
  (spine.openBlock (.item (line.indent + length + padding)) number, after)

/--
Start a table whose header is the last line of the paragraph, if the line
delimits as many columns; lines before that stay a paragraph.
-/
def openTable (spine : Spine) (content : List Char) (line : Line) : Option (Spine × Line) :=
  let (cells, preface) := headerCells content
  if cells.isEmpty || cells.length != (rowCells line.body).length then none
  else
    let container := spine.container
    let firstLine := container.first + preface.count '\n'
    let table : OpenBlock := { shape := .table cells.length [cells], first := firstLine }
    let around :=
      match spine.around with
      | outer :: more =>
          if preface.isEmpty then outer :: more
          else
            let before := Text.trimAscii (unescapeBars preface)
            outer.push (.block (.paragraph before) container.first (firstLine - 1) false []) :: more
      | [] => []
    some ({ spine with container := table, around }, line.toEnd)

/-- The paragraph that no line can turn into a table any more. -/
def forbidTable (spine : Spine) (content : List Char) : Spine :=
  { spine with container := { spine.container with shape := .paragraph content true } }

def readTable (spine : Spine) (line : Line) : Spine × Line :=
  match spine.container.shape with
  | .paragraph content noTable =>
      if noTable || !isDelimiterRow line.body then (spine, line)
      else (spine.openTable content line).getD (spine.forbidTable content, line)
  | .table columns rows =>
      if line.isBlank then (spine, line)
      else
        let rows := fitCells columns (rowCells line.body) :: rows
        let container := { spine.container with shape := .table columns rows }
        ({ spine with container }, line.toEnd)
  | _ => (spine, line)

def start? (spine : Spine) (number depth : Nat) (line : Line) : Option (Spine × Line) :=
  let body := line.body
  let inParagraph := spine.container.isParagraph
  if line.indent < 4 then
    if body.head? == some '>' then
      some (spine.openBlock .quote number, (line.skip (line.gap + 1)).skipOptional)
    else
      match headingStart? body with
      | some (level, length) =>
          some (spine.openBlock (.heading level []) number, line.skip (line.gap + length))
      | none =>
      match fenceStart? body with
      | some (mark, length) =>
          some (spine.openBlock (.fenced mark length line.gap []) number,
            line.skip (line.gap + length))
      | none =>
      match HtmlKind.ofLine? inParagraph body with
      | some kind => some (spine.openBlock (.html kind []) number, line)
      | none =>
      match spine.container.shape, underline? body with
      | .paragraph content noTable, some level =>
          some (spine.underline level content noTable line)
      | _, _ =>
      if isRule body then some (spine.openBlock .rule number, line.toEnd)
      else
        match itemStart? inParagraph body with
        | some (mark, start, length) =>
            if depth < 100 then some (spine.openItem number mark start length line) else none
        | none => none
  else if !spine.endsInParagraph && !line.isBlank then
    some (spine.openBlock (.indented []) number, line.skipColumns 4)
  else none

/--
Start blocks from a place of a line on, as long as the line is used up by
it.  A block that takes text is the last one.
-/
def startAll (tables : Bool) (number : Nat) (spine : Spine) (line : Line)
    (depth : Nat := 1) : Spine × Line :=
  if spine.container.isLiteral then (spine, line)
  else
    match spine.start? number depth line with
    | some (next, rest) =>
        if next.container.takesText then (next, rest)
        else if rest.left.length < line.left.length then
          startAll tables number next rest (depth + 1)
        else (next, rest)
    | none => if tables && line.indent < 4 then spine.readTable line else (spine, line)
termination_by line.left.length

def noteBlank (spine : Spine) (number : Nat) (line : Line) : Spine :=
  let container := spine.container
  let hasInside := !container.inside.isEmpty || !spine.inner.isEmpty
  let marked := line.isBlank &&
    match container.shape with
    | .quote | .heading _ _ | .rule | .fenced _ _ _ _ => false
    | .item _ => hasInside || container.first != number
    | .table _ rows => rows.length == 1
    | _ => true
  let (inside, inner) :=
    match line.isBlank, spine.inner, container.inside with
    | true, block :: more, drafts => (drafts, { block with blankAfter := true } :: more)
    | true, [], draft :: more => (draft.setBlank :: more, [])
    | _, inner, drafts => (drafts, inner)
  { spine with
    container := { container with blankAfter := marked, inside }
    around := spine.around.map fun block => { block with blankAfter := false }
    inner }

/-- The open blocks, outermost first. -/
def chain (spine : Spine) : List OpenBlock :=
  spine.around.reverse ++ spine.container :: spine.inner

/-- Give the rest of a line to the container, as its text or as a new paragraph. -/
def takeText (spine : Spine) (number : Nat) (line : Line) : Spine :=
  let spine := spine.closeInner (number - 1)
  match spine.container.shape with
  | .fenced _ _ _ _ | .indented _ =>
      { spine with container := spine.container.append (line.text ++ ['\n']) }
  | .html kind _ =>
      let container := spine.container.append (line.text ++ ['\n'])
      match spine.around with
      | outer :: around =>
          if kind.endsAt line.body then
            { spine with container := outer.push (container.toDraft number true), around }
          else { spine with container }
      | [] => { spine with container }
  | .heading _ _ =>
      { spine with container := spine.container.append (headingText line.body) }
  | .paragraph _ _ =>
      if line.isBlank then spine
      else { spine with container := spine.container.append (line.body ++ ['\n']) }
  | _ =>
      if line.isBlank then spine
      else spine.openBlock (.paragraph (line.body ++ ['\n']) false) number

/-- A line that only goes on with the paragraph that the line before it ended in. -/
def lazyText? (spine : Spine) (line : Line) : Option Spine :=
  match spine.inner.reverse with
  | block :: outer =>
      if block.isParagraph && !line.isBlank then
        some { spine with inner := (block.append (line.text ++ ['\n']) :: outer).reverse }
      else none
  | [] => none

def closeFence (spine : Spine) (number : Nat) : Spine :=
  spine.closeInner number

end Spine

structure Progress where
  chain : List OpenBlock
  definitions : Definitions := []

def Progress.readLine (tables : Bool) (progress : Progress) (number : Nat) (text : List Char) :
    Progress :=
  match progress.chain with
  | [] => progress
  | document :: inner =>
      let (spine, line, closed) :=
        follow progress.definitions document [] inner { left := text }
      let spine :=
        if closed then spine.closeFence number
        else
          let (spine, line) := spine.startAll tables number line
          let spine := spine.noteBlank number line
          (spine.lazyText? line).getD (spine.takeText number line)
      ⟨spine.chain, spine.definitions⟩

/-- Read lines, of which the first one has a number; gives the last number too. -/
def Progress.readLines (tables : Bool) (progress : Progress) (number : Nat) :
    List (List Char) → Progress × Nat
  | [] => (progress, number - 1)
  | line :: more => (progress.readLine tables number line).readLines tables (number + 1) more

/-- The drafts of the top level blocks of a text, last first, and all its definitions. -/
def readDrafts (tables : Bool) (s : List Char) : List Draft × Definitions :=
  let start : Progress := ⟨[{ shape := .document, first := 1 }], []⟩
  let (progress, last) := start.readLines tables 1 (textLines s)
  match progress.chain with
  | [] => ([], progress.definitions)
  | document :: inner =>
      let (draft?, definitions) := closeChain progress.definitions last inner
      ((document.push? draft?).inside, definitions)

end Markdown

end UiMarkdown
