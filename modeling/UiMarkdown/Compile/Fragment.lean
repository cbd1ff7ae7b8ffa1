import UiMarkdown.Document.Fragment
import UiMarkdown.Markdown.Parse

/-!
# Fragments from blocks

The blocks of a Markdown text become a fragment.  A soft break is a line feed
in the text, adjacent texts merge, and raw Html, at any depth, has no fragment:
the first such piece is the error.  A group dissolves: what it holds takes its
place among its neighbours.
-/

namespace UiMarkdown

namespace Markdown

def Target.titleText? (target : Target) : Option String :=
  (nonempty? target.title).map String.ofList

def infoLang? (info : List Char) : Option String :=
  (Text.words info).head?.map String.ofList

namespace Inline

mutual

/-- The fragment of a piece of running text, or the first raw Html in it. -/
def toFragment : Inline → Except (List Char) (List Fragment)
  | .text value => .ok [.text (String.ofList value)]
  | .softBreak => .ok [.text "\n"]
  | .hardBreak => .ok [.lineBreak]
  | .code value => .ok [.inlineCode (String.ofList value)]
  | .html source => .error source
  | .emphasis children => (toFragments children).map fun cs => [.emphasis (Fragment.mergeText cs)]
  | .strong children => (toFragments children).map fun cs => [.strong (Fragment.mergeText cs)]
  | .strike children => (toFragments children).map fun cs => [.delete (Fragment.mergeText cs)]
  | .link target children =>
      (toFragments children).map fun cs =>
        [.link (String.ofList target.url) target.titleText? (Fragment.mergeText cs)]
  | .image target children =>
      (toFragments children).map fun cs =>
        [.image (String.ofList target.url) target.titleText?
          (String.ofList (Fragment.flatten (Fragment.mergeText cs)))]
  | .group children => toFragments children

def toFragments : List Inline → Except (List Char) (List Fragment)
  | [] => .ok []
  | inline :: more => do
      let nodes ← toFragment inline
      let later ← toFragments more
      return nodes ++ later

end

def mergedFragments (content : List Inline) : Except (List Char) (List Fragment) :=
  (toFragments content).map Fragment.mergeText

def rowFragment (cells : List (List Inline)) : Except (List Char) Fragment := do
  let cells ← cells.mapM fun cell => (mergedFragments cell).map Fragment.tableCell
  return .tableRow cells

end Inline

namespace Block

mutual

def toFragment : Block → Except (List Char) (List Fragment)
  | .paragraph content => (Inline.mergedFragments content).map fun cs => [.paragraph cs]
  | .heading level content => (Inline.mergedFragments content).map fun cs => [.heading level cs]
  | .quote children => (toFragments children).map fun cs => [.blockquote cs]
  | .list start tight items =>
      (toFragments items).map fun cs => [.list start.isSome start (!tight) cs]
  | .item task children => (toFragments children).map fun cs => [.listItem task cs]
  | .code _ info literal => .ok [.code (infoLang? info) (String.ofList literal)]
  | .html source => .error source
  | .rule => .ok [.thematicBreak]
  | .table rows => (rows.mapM Inline.rowFragment).map fun cs => [.table cs]
  | .frontmatter _ => .ok []
  | .group children => toFragments children

def toFragments : List Block → Except (List Char) (List Fragment)
  | [] => .ok []
  | block :: more => do
      let nodes ← toFragment block
      let later ← toFragments more
      return nodes ++ later

end

end Block

end Markdown

end UiMarkdown
