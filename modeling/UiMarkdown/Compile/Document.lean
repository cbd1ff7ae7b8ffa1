import UiMarkdown.Compile.Tree
import UiMarkdown.Source.Frontmatter
import UiMarkdown.Source.Legacy

/-!
# Compilation

A source text is metadata and a body.  Errors in the metadata come first, then
those in the body, then queries that name others in a way of old.
-/

namespace UiMarkdown

/-- The metadata that frontmatter holds; without frontmatter it is that of no keys. -/
def Meta.ofFrontmatter : Option (List Char) → Except CompileError Meta
  | some yaml => (Frontmatter.parse yaml).map ofRaw
  | none => .ok (ofRaw [])

/-- The nodes of a body; the document is only there to place errors. -/
def Node.ofText (options : CompileOptions) (body document : List Char) :
    Except CompileError (List Node) :=
  let (masked, mask) := Mask.ofText body
  ofBody options mask masked document

namespace Document

def ofParts (metadata : Meta) (ast : List Node) : Document :=
  updateDependencies { version := currentVersion, metadata, ast }

def compile (options : CompileOptions) (source : List Char) : Except CompileError Document := do
  let (frontmatter, body) := Frontmatter.split source
  let metadata ← Meta.ofFrontmatter frontmatter
  let ast ← Node.ofText options body source
  match Legacy.check? options.legacyAuthors metadata.queries with
  | some error => .error error
  | none => return ofParts metadata ast

end Document

end UiMarkdown
