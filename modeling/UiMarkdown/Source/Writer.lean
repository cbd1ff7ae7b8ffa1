import UiMarkdown.Document.Node
import UiMarkdown.Source.Directive
import UiMarkdown.Source.Fence
import UiMarkdown.Source.Frontmatter
import UiMarkdown.Template.Mask
import UiMarkdown.Yaml.Writer

/-!
# Source of a document

A document has one canonical source: its metadata in a fixed order of sections,
then a block for every passage and every fence, with a blank line between two
blocks.
-/

namespace UiMarkdown

namespace Fence

/-- The length of the longest run of a character, after a run of the given length. -/
def longestRun (mark : Char) : (current : Nat) → List Char → Nat
  | current, [] => current
  | current, c :: rest =>
      if c == mark then longestRun mark (current + 1) rest
      else max current (longestRun mark 0 rest)

/--
The fence around a body: of tildes if the info has a backtick, and longer than
any run of its character in the body.
-/
def around (info body : List Char) : Fence :=
  let mark := if info.contains '\x60' then '~' else '\x60'
  ⟨mark, max (longestRun mark 0 body) 2 + 1⟩

def marker (fence : Fence) : List Char :=
  List.replicate fence.size fence.mark

def write (info body : List Char) : List Char :=
  let marker := (around info body).marker
  let ending := if body.isEmpty || body.getLast? == some '\n' then [] else ['\n']
  marker ++ info ++ '\n' :: body ++ ending ++ marker

end Fence

namespace Payload

/--
The body of a directive.  Expressions are masked while it is written, so that
they do not count for the styles of texts.
-/
def write (payload : Object) : List Char :=
  if payload.isEmpty then []
  else
    match Mask.ofJson (.obj payload) with
    | (.obj members, mask) => mask.restore (Yaml.writeMapping members)
    | _ => []

end Payload

namespace Frame

def toPayload : Frame → Object
  | .hstack data | .vstack data => data
  | .each loop =>
      (loop.extra.insert "from" (.str loop.source)).insert "as" (.str loop.name)

end Frame

namespace Node

/-- The block of a passage, unless it is blank. -/
def passageBlock? (p : Passage) : Option (List Char) :=
  let markdown := if p.source.isEmpty then p.text.toList else p.source.toList
  if Text.allBlank markdown then none else some (Text.trimEnd markdown)

mutual

def blocks : Node → List (List Char)
  | .passage _ p => (passageBlock? p).toList
  | .leaf _ kind data => [Fence.write kind.tag.toList (Payload.write data)]
  | .code _ info text => [Fence.write info.toInfo text.toList]
  | .container _ frame children =>
      Fence.write frame.container.openTag.toList (Payload.write frame.toPayload) ::
        blocksOfAll children ++ [Fence.write frame.container.closeTag.toList []]

def blocksOfAll : List Node → List (List Char)
  | [] => []
  | node :: more => blocks node ++ blocksOfAll more

end

end Node

namespace Meta

/-- Put a member in the place of the one with its key, or at the end. -/
def replace (members : List (String × Json)) (key : String) (value : Json) :
    List (String × Json) :=
  if members.any (·.1 == key) then
    members.map fun member => if member.1 == key then (key, value) else member
  else members ++ [(key, value)]

/-- The mapping of metadata: the sections that are not empty, then all other keys. -/
def toMapping (metadata : Meta) : List (String × Json) :=
  let sections := [("hypernote", metadata.identity), ("queries", metadata.queries),
    ("actions", metadata.actions), ("components", metadata.components),
    ("events", metadata.events)]
  let filled := sections.filter fun (_, members) => !members.isEmpty
  metadata.extra.foldl (fun members (key, value) => replace members key value)
    (filled.map fun (name, members) => (name, .obj members))

def frontmatter? (metadata : Meta) : Option (List Char) :=
  if metadata.toMapping.isEmpty then none else some (Yaml.writeMapping metadata.toMapping)

end Meta

namespace Document

def bodyText (document : Document) : List Char :=
  ['\n', '\n'].intercalate (Node.blocksOfAll document.ast)

/--
What stands before the body.  A body that would open frontmatter follows an
empty one.
-/
def headText (document : Document) : List Char :=
  let line := Frontmatter.delimiter ++ ['\n']
  match document.metadata.frontmatter? with
  | some yaml => line ++ yaml ++ line
  | none => if Frontmatter.delimiter.isPrefixOf document.bodyText then line ++ line else []

def write (document : Document) : List Char :=
  let body := document.bodyText
  if body.isEmpty then document.headText
  else if document.headText.isEmpty then body ++ ['\n']
  else document.headText ++ '\n' :: body ++ ['\n']

end Document

end UiMarkdown
