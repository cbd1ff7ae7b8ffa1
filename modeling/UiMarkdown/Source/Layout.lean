import UiMarkdown.Document.Node
import UiMarkdown.Json.Writer

/-!
# Data of containers

Width and height of a container are text with a unit; a bare number is a number
of pixels.  A loop has a source and a name for the current value, with defaults
for both.
-/

namespace UiMarkdown

namespace Layout

def fields : List String := ["width", "height"]

def unit : List Char := ['p', 'x']

/-- Whether a text is digits with at most one point among them. -/
def isPlainNumber (s : List Char) : Bool :=
  s.any Char.isDigit && s.all (fun c => c.isDigit || c == '.') && s.count '.' ≤ 1

/-- A length with its unit; a value that is neither number nor text stays. -/
def withUnit : Json → Json
  | .num n => .str (String.ofList (n.text ++ unit))
  | .str s =>
      let s := Text.trim s.toList
      .str (String.ofList (if isPlainNumber s then s ++ unit else s))
  | value => value

def sanitize (payload : Object) : Object :=
  payload.map fun (key, value) => if fields.contains key then (key, withUnit value) else (key, value)

end Layout

namespace Loop

def defaultSource : String := "queries.items"

def defaultName : String := "item"

/-- The nonempty text of a value after a change, or a default. -/
def textOr (default : String) (change : List Char → List Char) (value : Option Json) : String :=
  match value with
  | some (.str s) => ((nonempty? (change s.toList)).map String.ofList).getD default
  | _ => default

/-- A name without white space around it and without the sigils before it. -/
def dropSigils (s : List Char) : List Char :=
  (Text.trim s).dropWhile (· == '$')

/-- The loop that a payload describes; `from` counts before `source`. -/
def ofPayload (payload : Object) : Loop :=
  let source := match payload.get? "from" with
    | some value => some value
    | none => payload.get? "source"
  { source := textOr defaultSource Text.trim source
    name := textOr defaultName dropSigils (payload.get? "as")
    extra := Layout.sanitize (((payload.erase "from").erase "source").erase "as") }

end Loop

namespace Frame

def ofPayload (kind : Container) (payload : Object) : Frame :=
  match kind with
  | .hstack => .hstack (Layout.sanitize payload)
  | .vstack => .vstack (Layout.sanitize payload)
  | .each => .each (Loop.ofPayload payload)

end Frame

end UiMarkdown
