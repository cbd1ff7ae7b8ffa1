import UiMarkdown.Markdown.Angle
import UiMarkdown.Markdown.Line
import UiMarkdown.Markdown.Start
import UiMarkdown.Markdown.Target

/-!
# Drafts of blocks

While lines are read, a block is a draft: its running text is not looked at
yet, since a definition further down may give it a meaning.  An open block can
still take lines; closing it makes a draft of it.
-/

namespace UiMarkdown

namespace Markdown

/-- What a draft is, apart from the drafts inside it. -/
inductive Shape where
  | quote
  | list (mark : ListMark) (start : Nat) (tight : Bool)
  | item
  | paragraph (content : List Char)
  | heading (level : Nat) (content : List Char)
  | code (fenced : Bool) (info literal : List Char)
  | html (source : List Char)
  | rule
  | table (rows : List (List (List Char)))
  deriving Repr

/--
A closed block with its first and last line, whether a blank line follows its
last line, and the drafts inside it, last first.
-/
inductive Draft where
  | block (shape : Shape) (first last : Nat) (blankAfter : Bool) (inside : List Draft)
  deriving Repr

namespace Draft

def blankAfter : Draft → Bool
  | block _ _ _ blank _ => blank

/-- The drafts inside a draft, last first. -/
def inside : Draft → List Draft
  | block _ _ _ _ drafts => drafts

def setBlank : Draft → Draft
  | block shape first last _ drafts => block shape first last true drafts

mutual

/-- Whether a draft ends with a blank line, its own or that of the last draft in a list. -/
def endsBlank : Draft → Bool
  | block shape _ _ blank drafts =>
      blank ||
        match shape with
        | .list _ _ _ | .item => lastEndsBlank drafts
        | _ => false

def lastEndsBlank : List Draft → Bool
  | [] => false
  | draft :: _ => endsBlank draft

end

/--
Whether items, last first, are apart: a blank line stands between two of them,
or between two blocks of one of them.
-/
def areApart (isLast : Bool) : List Draft → Bool
  | [] => false
  | item :: before =>
      (!isLast && item.blankAfter) ||
        (if isLast then item.inside.drop 1 else item.inside).any endsBlank ||
        areApart false before

end Draft

/-- What an open block is, with the text that it has taken so far. -/
inductive OpenShape where
  | document
  | quote
  | list (mark : ListMark) (start : Nat)
  | item (indent : Nat)
  | paragraph (content : List Char) (noTable : Bool)
  | heading (level : Nat) (content : List Char)
  | fenced (mark : Char) (length indent : Nat) (content : List Char)
  | indented (content : List Char)
  | html (kind : HtmlKind) (source : List Char)
  | rule
  | table (columns : Nat) (rows : List (List (List Char)))
  deriving Repr

/--
A block that can still take lines, with its first line, whether a blank line
came last, and the drafts inside it, last first.
-/
structure OpenBlock where
  shape : OpenShape
  first : Nat
  blankAfter : Bool := false
  inside : List Draft := []
  deriving Repr

def startsBlank (s : List Char) : Bool :=
  let rest := s.dropWhile Text.isSpaceOrTab
  rest.isEmpty || rest.head? == some '\n'

/-- The information and the literal text of a fenced block, whose first line is the former. -/
def fencedText (content : List Char) : List Char × List Char :=
  let line := content.takeWhile (· != '\n')
  (unescape (Text.trimAscii (decodeEntities line)), content.drop (line.length + 1))

/-- The literal text of an indented block: blank lines at its end go. -/
def indentedText (content : List Char) : List Char :=
  let kept := Text.dropEnd (fun c => Text.isSpaceOrTab c || c == '\n') content
  kept ++ (content.drop kept.length).takeWhile (· != '\n') ++ ['\n']

namespace OpenBlock

/-- Whether a block may hold another one: lists hold items, and nothing else does. -/
def holds (block : OpenBlock) (isItem : Bool) : Bool :=
  match block.shape with
  | .document | .quote | .item _ => !isItem
  | .list _ _ => isItem
  | _ => false

/-- Whether a block takes the text of a line without looking for blocks in it. -/
def takesText (block : OpenBlock) : Bool :=
  match block.shape with
  | .paragraph _ _ | .heading _ _ | .fenced _ _ _ _ | .indented _ | .html _ _ => true
  | _ => false

/-- Whether a block takes lines as they are, whatever block they might start. -/
def isLiteral (block : OpenBlock) : Bool :=
  match block.shape with
  | .fenced _ _ _ _ | .indented _ | .html _ _ => true
  | _ => false

def isParagraph (block : OpenBlock) : Bool :=
  match block.shape with
  | .paragraph _ _ => true
  | _ => false

def push (block : OpenBlock) (draft : Draft) : OpenBlock :=
  { block with inside := draft :: block.inside }

def push? (block : OpenBlock) : Option Draft → OpenBlock
  | none => block
  | some draft => block.push draft

def append (block : OpenBlock) (text : List Char) : OpenBlock :=
  { block with
    shape :=
      match block.shape with
      | .paragraph content noTable => .paragraph (content ++ text) noTable
      | .heading level content => .heading level (content ++ text)
      | .fenced mark length indent content => .fenced mark length indent (content ++ text)
      | .indented content => .indented (content ++ text)
      | .html kind source => .html kind (source ++ text)
      | shape => shape }

/--
A block as a draft that ends with a line, with the given answer to whether a
list is tight.  The document is no block and counts as a quotation.
-/
def toDraft (block : OpenBlock) (last : Nat) (tight : Bool) : Draft :=
  let shape :=
    match block.shape with
    | .document | .quote => Shape.quote
    | .list mark start => .list mark start tight
    | .item _ => .item
    | .paragraph content _ => .paragraph content
    | .heading level content => .heading level content
    | .fenced _ _ _ content =>
        let (info, literal) := fencedText content
        .code true info literal
    | .indented content => .code false [] (indentedText content)
    | .html _ source => .html source
    | .rule => .rule
    | .table _ rows => .table rows.reverse
  .block shape block.first last block.blankAfter block.inside

def isTight (block : OpenBlock) : Bool :=
  !Draft.areApart true block.inside

/--
Close a block with a line as its last one.  The definitions that start a
paragraph are taken out of it, and a paragraph without other text vanishes.
-/
def close (block : OpenBlock) (definitions : Definitions) (last : Nat) (tight : Bool) :
    Option Draft × Definitions :=
  match block.shape with
  | .paragraph content noTable =>
      let (definitions, content) := takeDefinitions definitions content
      if startsBlank content then (none, definitions)
      else
        (some ({ block with shape := .paragraph content noTable }.toDraft last tight), definitions)
  | _ => (some (block.toDraft last tight), definitions)

end OpenBlock

def closeChain (definitions : Definitions) (last : Nat) :
    List OpenBlock → Option Draft × Definitions
  | [] => (none, definitions)
  | block :: inner =>
      let (draft?, definitions) := closeChain definitions last inner
      let block := block.push? draft?
      block.close definitions last block.isTight

def chainDraft? : List OpenBlock → Option Draft
  | [] => none
  | block :: inner => some ((block.push? (chainDraft? inner)).toDraft block.first true)

end Markdown

end UiMarkdown
