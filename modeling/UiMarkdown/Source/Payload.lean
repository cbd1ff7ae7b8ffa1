import UiMarkdown.Yaml.Value
import UiMarkdown.Template.Expression
import UiMarkdown.Source.Error
import UiMarkdown.Source.Frontmatter

/-!
# Payloads

The body of a directive is a Yaml mapping.  If it is none, its lines are read
as keys and texts, and if there are no such lines it is all one text.
-/

namespace UiMarkdown

namespace Payload

/-- The key and the text of a line; a key has no white space in it. -/
def readLine? (line : List Char) : Option (String × Json) :=
  match Text.cutAt? (· == ':') line with
  | some (key, value) =>
      let key := Text.trim key
      if key.isEmpty || key.any Text.isBlank then none
      else
        let value := Text.trim value
        some (String.ofList key, .str (String.ofList ((Expression.unquoted? value).getD value)))
  | none => none

def ofLines (body : List Char) : Object :=
  Object.ofList ((Text.lines body).filterMap readLine?)

def ofWhole (body : List Char) : Object :=
  [("text", .str (String.ofList (Text.trim body)))]

def ofBody (body : List Char) : Object :=
  if Text.allBlank body then []
  else
    match Yaml.ofText? body with
    | some (.obj members) => members
    | _ =>
        let members := ofLines body
        if members.isEmpty then ofWhole body else members

end Payload

namespace Frontmatter

/-- The mapping that frontmatter holds; an empty one if it is blank. -/
def parse (yaml : List Char) : Except CompileError Object :=
  if Text.allBlank yaml then .ok []
  else
    match Yaml.ofText? yaml with
    | none => .error .frontmatterSyntax
    | some (.obj members) => .ok members
    | some .null => .ok []
    | some other => .error (.frontmatterKind other.kindName)

end Frontmatter

end UiMarkdown
