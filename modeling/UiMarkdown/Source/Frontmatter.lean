import UiMarkdown.Document.Node
import UiMarkdown.Text.Chars

/-!
# Frontmatter

A source may open with metadata between a line of three hyphens and a line of
three hyphens or points.  The metadata is sorted into sections: some by name,
some by the sigil of their key, and the rest stays as it is.
-/

namespace UiMarkdown

namespace Frontmatter

def delimiter : List Char := ['-', '-', '-']

/-- The other line that may close frontmatter. -/
def dots : List Char := ['.', '.', '.']

def isClosing (line : List Char) : Bool :=
  let content := Text.dropLineEnds line
  content == delimiter || content == dots

def cutLines? : List (List Char) → Option (List (List Char) × List (List Char))
  | [] => none
  | line :: rest =>
      if isClosing line then some ([], rest)
      else (cutLines? rest).map fun (before, after) => (line :: before, after)

def afterOpening? (source : List Char) : Option (List Char) :=
  match (delimiter ++ ['\n']).isPrefixOf? source with
  | some rest => some rest
  | none => (delimiter ++ ['\r', '\n']).isPrefixOf? source

/-- The frontmatter of a source, if it opens with one that is closed, and the body. -/
def split (source : List Char) : Option (List Char) × List Char :=
  match (afterOpening? source).bind fun rest => cutLines? (Text.linesWithEnds rest) with
  | some (before, after) => (some before.flatten, after.flatten)
  | none => (none, source)

end Frontmatter

namespace Meta

/-- The keys that belong to the identity section though they stand outside of it. -/
def identityKeys : List String := ["name", "icon", "description"]

/--
Take a section out of raw metadata.  One that is no object is kept under a name
that says so.
-/
def takeSection (raw : Object) (key : String) : Object × Object :=
  match raw.get? key with
  | some (.obj members) => (members, raw.erase key)
  | some .null => ([], raw.erase key)
  | some other => ([], (raw.erase key).insert (key ++ "_invalid") other)
  | none => ([], raw)

/-- Move a key into the identity section unless that has it already. -/
def takeIdentity (state : Object × Object) (key : String) : Object × Object :=
  let (identity, raw) := state
  match raw.get? key with
  | some value => (identity.insertNew key value, raw.erase key)
  | none => (identity, raw)

def place (m : Meta) (member : String × Json) : Meta :=
  let (key, value) := member
  match key.toList with
  | '$' :: name => { m with queries := m.queries.insertNew (String.ofList name) value }
  | '@' :: name => { m with actions := m.actions.insertNew (String.ofList name) value }
  | '#' :: name => { m with components := m.components.insertNew (String.ofList name) value }
  | _ => { m with extra := m.extra.insert key value }

/-- Sort raw metadata into sections.  Dependencies are never taken from it. -/
def ofRaw (raw : Object) : Meta :=
  let (identity, raw) := takeSection raw "hypernote"
  let (queries, raw) := takeSection raw "queries"
  let (actions, raw) := takeSection raw "actions"
  let (components, raw) := takeSection raw "components"
  let (events, raw) := takeSection raw "events"
  let (identity, raw) := identityKeys.foldl takeIdentity (identity, raw.erase "dependencies")
  raw.foldl place { identity, queries, actions, components, events }

end Meta

namespace Json

def kindName : Json → String
  | .null => "null"
  | .bool _ => "boolean"
  | .num _ => "number"
  | .str _ => "string"
  | .arr _ => "sequence"
  | .obj _ => "mapping"

end Json

end UiMarkdown
