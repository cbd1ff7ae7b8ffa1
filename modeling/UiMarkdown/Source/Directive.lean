import UiMarkdown.Document.Node
import UiMarkdown.Text.Case

/-!
# Directives

The info of a fence may name a construct of the user interface.  Case does not
count, and a point may be white space.  Every other fence is a code sample with
a language.
-/

namespace UiMarkdown

inductive Directive where
  | leaf (kind : Leaf)
  | opening (kind : Container)
  | closing (kind : Container)
  | code (info : CodeInfo)
  deriving DecidableEq, Repr

namespace Container

def openTag : Container → String
  | .hstack => "hstack.start"
  | .vstack => "vstack.start"
  | .each => "each.start"

def closeTag : Container → String
  | .hstack => "hstack.end"
  | .vstack => "vstack.end"
  | .each => "each.end"

end Container

namespace Leaf

def tag : Leaf → String
  | .button => "button"
  | .input => "input"
  | .markdownEditor => "markdown-editor"
  | .markdownViewer => "markdown.viewer"

end Leaf

namespace CodeInfo

def ofInfo (info : List Char) : CodeInfo :=
  let info := Text.trim info
  match Text.cutAt? Text.isBlank info with
  | some (lang, extra) =>
      ⟨String.ofList lang, (nonempty? (Text.trim extra)).map String.ofList⟩
  | none => ⟨String.ofList info, none⟩

def toInfo (info : CodeInfo) : List Char :=
  match info.extra with
  | some extra => info.lang.toList ++ ' ' :: extra.toList
  | none => info.lang.toList

end CodeInfo

namespace Directive

def names : List (String × Directive) :=
  [("button", .leaf .button),
    ("input", .leaf .input),
    ("markdown-editor", .leaf .markdownEditor),
    ("markdown_editor", .leaf .markdownEditor),
    ("markdown.editor", .leaf .markdownEditor),
    ("markdown.viewer", .leaf .markdownViewer),
    ("markdown-viewer", .leaf .markdownViewer),
    ("markdown_viewer", .leaf .markdownViewer),
    ("hstack.start", .opening .hstack),
    ("vstack.start", .opening .vstack),
    ("each", .opening .each),
    ("each.start", .opening .each),
    ("hstack.end", .closing .hstack),
    ("vstack.end", .closing .vstack),
    ("each.end", .closing .each)]

/-- An info with its words joined by points, in lower case. -/
def normalizeInfo (info : List Char) : List Char :=
  Text.lower (['.'].intercalate (Text.words info))

def ofInfo (info : List Char) : Directive :=
  match names.lookup (String.ofList (normalizeInfo info)) with
  | some directive => directive
  | none => .code (CodeInfo.ofInfo info)

end Directive

end UiMarkdown
