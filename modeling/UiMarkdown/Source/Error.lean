import UiMarkdown.Json.Basic
import UiMarkdown.Text.Chars

/-!
# Errors

The causes for which a source text has no document.
-/

namespace UiMarkdown

inductive CompileError where
  /-- Raw markup, with its place in the source as offset and length in bytes. -/
  | html (markup : String) (span : Option (Nat × Nat))
  /-- A query that names another one by a sigil. -/
  | legacyReference (path value suggestion : String)
  /-- Frontmatter that is no Yaml. -/
  | frontmatterSyntax
  /-- Frontmatter that is a value of another kind than a mapping. -/
  | frontmatterKind (found : String)
  deriving DecidableEq, Repr

namespace CompileError

/-- The error of raw markup, placed at its first occurrence in the source. -/
def ofHtml (markup document : List Char) : CompileError :=
  let markup := Text.trim markup
  let span :=
    if markup.isEmpty then none
    else (Text.cutOn? markup document).map fun (before, _) =>
      (Text.byteLength before, Text.byteLength markup)
  .html (String.ofList markup) span

/-- The error of a query that names another one by a sigil, with the way to name it now. -/
def ofLegacy (path : String) (value : String) : CompileError :=
  .legacyReference path value
    ("queries." ++ String.ofList (value.toList.dropWhile (· == '$')))

/-- The text of an error; that of a syntax error is left to the reader of the syntax. -/
def message? : CompileError → Option String
  | .html markup _ => some ("HTML is not supported: `" ++ markup ++ "`")
  | .legacyReference path value suggestion =>
      some ("Legacy reference `" ++ value ++ "` at `" ++ path ++
        "` is no longer supported; use `" ++ suggestion ++ "`")
  | .frontmatterSyntax => none
  | .frontmatterKind found =>
      some ("Invalid frontmatter: expected a mapping, found " ++ found)

def code : CompileError → String
  | .html _ _ => "hypernote::content::html"
  | .legacyReference _ _ _ => "hypernote::legacy::reference"
  | .frontmatterSyntax | .frontmatterKind _ => "hypernote::meta::frontmatter"

def suffix : CompileError → String
  | .html _ _ => "html"
  | .legacyReference _ _ _ => "reference"
  | .frontmatterSyntax | .frontmatterKind _ => "frontmatter"

def help? : CompileError → Option String
  | .html _ _ =>
      some ("Hypernote renders a fixed node vocabulary; " ++
        "use Markdown or a directive fence instead of raw HTML.")
  | .legacyReference _ _ _ =>
      some "`$name` shorthands were replaced by explicit `queries.<name>` references."
  | .frontmatterSyntax | .frontmatterKind _ => none

end CompileError

end UiMarkdown
