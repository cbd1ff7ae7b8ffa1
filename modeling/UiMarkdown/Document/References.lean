import UiMarkdown.Document.Node
import UiMarkdown.Template.Expression

/-!
# References and dependencies

The references of a passage stand in its text and in the targets of its links
and images; those of a payload in all its texts.  A document depends on the
queries and global names that its references and loops name.  The name that a
loop gives to its current value is no global name inside the loop.
-/

namespace UiMarkdown

def addReferences (refs : List String) (s : List Char) : List String :=
  (Template.references s).foldl Text.pushNew refs

namespace Fragment

mutual

def targets : Fragment → List String
  | .link url _ cs => url :: targetsAll cs
  | .image url _ _ => [url]
  | .paragraph cs | .heading _ cs | .blockquote cs | .list _ _ _ cs | .listItem _ cs
  | .table cs | .tableRow cs | .tableCell cs | .emphasis cs | .strong cs | .delete cs =>
      targetsAll cs
  | .code _ _ | .thematicBreak | .text _ | .inlineCode _ | .lineBreak => []

def targetsAll : List Fragment → List String
  | [] => []
  | node :: more => targets node ++ targetsAll more

end

def references (nodes : List Fragment) (text : List Char) : List String :=
  (targetsAll nodes).foldl (fun refs url => addReferences refs url.toList)
    (addReferences [] text)

end Fragment

namespace Json

mutual

/-- The texts in a value, keys apart, in order. -/
def strings : Json → List String
  | .str s => [s]
  | .arr items => stringsOfItems items
  | .obj members => stringsOfMembers members
  | _ => []

def stringsOfItems : List Json → List String
  | [] => []
  | item :: more => strings item ++ stringsOfItems more

def stringsOfMembers : List (String × Json) → List String
  | [] => []
  | (_, value) :: more => strings value ++ stringsOfMembers more

end

end Json

namespace Object

def references (payload : Object) : List String :=
  (Json.stringsOfMembers payload).foldl (fun refs s => addReferences refs s.toList) []

end Object

namespace Dependencies

/-- Add what a reference names, given the names that the loops around it define. -/
def record (aliases : List String) (dependencies : Dependencies) (expression : String) :
    Dependencies :=
  match Reference.ofText? expression with
  | none => dependencies
  | some reference =>
      if reference.root == "queries" then
        match reference.queryId? with
        | some id => dependencies.addQuery id
        | none => dependencies
      else if reference.root == "globals" then
        match reference.segments with
        | .key name :: _ => dependencies.addGlobal name
        | _ => dependencies
      else if aliases.contains reference.root then dependencies
      else dependencies.addGlobal reference.root

def recordAll (aliases : List String) (dependencies : Dependencies) (refs : List String) :
    Dependencies :=
  refs.foldl (record aliases) dependencies

mutual

def addNode (aliases : List String) (dependencies : Dependencies) : Node → Dependencies
  | .passage _ p => recordAll aliases dependencies p.refs
  | .leaf _ _ data => recordAll aliases dependencies (Object.references data)
  | .code _ _ _ => dependencies
  | .container _ (.hstack data) cs | .container _ (.vstack data) cs =>
      addNodes aliases (recordAll aliases dependencies (Object.references data)) cs
  | .container _ (.each loop) cs =>
      addNodes (loop.name :: aliases)
        (recordAll aliases (record aliases dependencies loop.source)
          (Object.references loop.extra)) cs

def addNodes (aliases : List String) (dependencies : Dependencies) : List Node → Dependencies
  | [] => dependencies
  | node :: more => addNodes aliases (addNode aliases dependencies node) more

end

def ofNodes (nodes : List Node) : Dependencies :=
  addNodes [] {} nodes

end Dependencies

def Document.updateDependencies (document : Document) : Document :=
  { document with
    metadata := { document.metadata with dependencies := Dependencies.ofNodes document.ast } }

end UiMarkdown
