import UiMarkdown.Markdown.Inline
import UiMarkdown.Markdown.Spine

/-!
# Blocks of a text

The blocks of a Markdown text, with the running text in them read under all
definitions of the text.
-/

namespace UiMarkdown

namespace Markdown

structure Extensions where
  tables : Bool
  strokes : Bool
  tasks : Bool
  deriving DecidableEq, Repr

/-- An item, which is a task if its first paragraph starts with the mark of one. -/
def Block.itemOf (tasks : Bool) (children : List Block) : Block :=
  match children with
  | .paragraph content :: more =>
      match if tasks then takeTask? content else none with
      | some (done, rest) => .item (some done) (.paragraph rest :: more)
      | none => .item none children
  | _ => .item none children

namespace Draft

mutual

def toBlock (tasks : Bool) (setting : Setting) : Draft → Block
  | block shape _ _ _ drafts =>
      let children := (toBlocks tasks setting drafts).reverse
      match shape with
      | .quote => .quote children
      | .list mark start tight => .list (if mark.ordered then some start else none) tight children
      | .item => .itemOf tasks children
      | .paragraph content => .paragraph (Inline.ofText setting content)
      | .heading level content => .heading level (Inline.ofText setting content)
      | .code fenced info literal => .code fenced info literal
      | .html source => .html source
      | .rule => .rule
      | .table rows => .table (rows.map fun cells => cells.map (Inline.ofText setting))

def toBlocks (tasks : Bool) (setting : Setting) : List Draft → List Block
  | [] => []
  | draft :: more => toBlock tasks setting draft :: toBlocks tasks setting more

end

def toPlaced (tasks : Bool) (setting : Setting) : Draft → Placed
  | block shape first last blank drafts =>
      ⟨toBlock tasks setting (block shape first last blank drafts), first, last⟩

end Draft

def parse (extensions : Extensions) (s : List Char) : List Placed :=
  let (drafts, definitions) := readDrafts extensions.tables s
  let setting : Setting := { strokes := extensions.strokes, definitions }
  (drafts.map (Draft.toPlaced extensions.tasks setting)).reverse

end Markdown

end UiMarkdown
