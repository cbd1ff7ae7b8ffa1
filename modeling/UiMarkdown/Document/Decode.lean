import UiMarkdown.Document.Encode

/-!
# Documents from Json

Reading is strict: a member without a default must be there and every value
must have the right type.  Members without a meaning are passed over.  A record
may also be the array of its members in their order.
-/

namespace UiMarkdown

namespace Json

def asString? : Json → Option String
  | .str s => some s
  | _ => none

def asBool? : Json → Option Bool
  | .bool b => some b
  | _ => none

def asNatBelow? (bound : Nat) : Json → Option Nat
  | .num (.int i) => if 0 ≤ i && i < bound then some i.toNat else none
  | _ => none

def asArray? : Json → Option (List Json)
  | .arr items => some items
  | _ => none

def asObject? : Json → Option Object
  | .obj members => some members
  | _ => none

def asStrings? (value : Json) : Option (List String) :=
  value.asArray?.bind fun items => items.mapM asString?

def asRecord? (names : List String) : Json → Option Object
  | .obj members => some members
  | .arr items => if items.length ≤ names.length then some (Object.ofList (names.zip items)) else none
  | _ => none

end Json

namespace Object

def need? {α : Type} (object : Object) (key : String) (read : Json → Option α) : Option α :=
  (object.get? key).bind read

def optional? {α : Type} (object : Object) (key : String) (read : Json → Option α) :
    Option (Option α) :=
  match object.get? key with
  | none => some none
  | some .null => some none
  | some value => (read value).map some

def getOr? {α : Type} (object : Object) (key : String) (default : α) (read : Json → Option α) :
    Option α :=
  match object.get? key with
  | none => some default
  | some value => read value

def without (object : Object) (keys : List String) : Object :=
  object.filter fun (key, _) => !keys.contains key

end Object

namespace Fragment

def kinds : List (String × List String) :=
  [("paragraph", ["children"]),
    ("heading", ["depth", "children"]),
    ("blockquote", ["children"]),
    ("list", ["ordered", "start", "spread", "children"]),
    ("listItem", ["checked", "children"]),
    ("code", ["lang", "value"]),
    ("thematicBreak", []),
    ("table", ["children"]),
    ("tableRow", ["children"]),
    ("tableCell", ["children"]),
    ("text", ["value"]),
    ("emphasis", ["children"]),
    ("strong", ["children"]),
    ("delete", ["children"]),
    ("inlineCode", ["value"]),
    ("break", []),
    ("link", ["url", "title", "children"]),
    ("image", ["url", "title", "alt"])]

/--
The name of the kind of a node.  Inside another node, a kind may be given by
its number.
-/
def kindName? (nested : Bool) : Json → Option String
  | .str name => some name
  | .num (.int i) => if nested && 0 ≤ i then (kinds[i.toNat]?).map (·.1) else none
  | _ => none

def parts? (nested : Bool) : Json → Option (String × Object)
  | .obj members => (Object.need? members "type" (kindName? nested)).map fun name => (name, members)
  | .arr (tag :: items) => do
      let name ← kindName? nested tag
      let names ← kinds.lookup name
      if names.isEmpty then return (name, [])
      else
        let members ← (Json.arr items).asRecord? names
        return (name, members)
  | _ => none

def ofParts? (name : String) (members : Object) (children : Option (List Fragment)) :
    Option Fragment :=
  match name with
  | "paragraph" => children.map .paragraph
  | "heading" => do return .heading (← members.need? "depth" (Json.asNatBelow? 256)) (← children)
  | "blockquote" => children.map .blockquote
  | "list" => do
      return .list (← members.need? "ordered" Json.asBool?)
        (← members.optional? "start" (Json.asNatBelow? (Nat.pow 2 64)))
        (← members.need? "spread" Json.asBool?) (← children)
  | "listItem" => do return .listItem (← members.optional? "checked" Json.asBool?) (← children)
  | "code" => do
      return .code (← members.optional? "lang" Json.asString?)
        (← members.need? "value" Json.asString?)
  | "thematicBreak" => some .thematicBreak
  | "table" => children.map .table
  | "tableRow" => children.map .tableRow
  | "tableCell" => children.map .tableCell
  | "text" => (members.need? "value" Json.asString?).map .text
  | "emphasis" => children.map .emphasis
  | "strong" => children.map .strong
  | "delete" => children.map .delete
  | "inlineCode" => (members.need? "value" Json.asString?).map .inlineCode
  | "break" => some .lineBreak
  | "link" => do
      return .link (← members.need? "url" Json.asString?)
        (← members.optional? "title" Json.asString?) (← children)
  | "image" => do
      return .image (← members.need? "url" Json.asString?)
        (← members.optional? "title" Json.asString?) (← members.need? "alt" Json.asString?)
  | _ => none

/-- The children among the members of a node, read by `read`; `none` when they are no array. -/
def childrenOf? (members : Object) (read : List Json → Option (List Fragment)) :
    Option (List Fragment) :=
  members.need? "children" fun value => value.asArray?.bind read

def read? : (fuel : Nat) → (nested : Bool) → Json → Option Fragment
  | 0, _, _ => none
  | fuel + 1, nested, value => do
      let (name, members) ← parts? nested value
      let names ← kinds.lookup name
      let children :=
        if names.contains "children" then childrenOf? members (·.mapM (read? fuel true)) else none
      ofParts? name members children

end Fragment

namespace Json

mutual

def depth : Json → Nat
  | .arr items => depthItems items + 1
  | .obj members => depthMembers members + 1
  | _ => 1

def depthItems : List Json → Nat
  | [] => 0
  | item :: more => max (depth item) (depthItems more)

def depthMembers : List (String × Json) → Nat
  | [] => 0
  | (_, value) :: more => max (depth value) (depthMembers more)

end

end Json

namespace Fragment

def ofJson? (value : Json) : Option Fragment :=
  read? value.depth true value

def ofJsons? (value : Json) : Option (List Fragment) :=
  value.asArray?.bind fun items => items.mapM fun item => read? item.depth false item

end Fragment

namespace CodeInfo

def ofJson? (value : Json) : Option CodeInfo := do
  let members ← value.asRecord? ["lang", "meta"]
  return ⟨← members.need? "lang" Json.asString?, ← members.optional? "meta" Json.asString?⟩

end CodeInfo

namespace Loop

def ofJson? (value : Json) : Option Loop := do
  let members ← value.asObject?
  return ⟨← members.need? "source" Json.asString?, ← members.need? "as" Json.asString?,
    members.without ["source", "as"]⟩

end Loop

namespace Node

def kindNames : List String :=
  ["markdown", "button", "input", "markdown_editor", "markdown_viewer", "literal_code", "hstack",
    "vstack", "each"]

def kindName? : Json → Option String
  | .str name => some name
  | .num (.int i) => if 0 ≤ i then kindNames[i.toNat]? else none
  | _ => none

def passageOf? (members : Object) : Option Passage := do
  let fragment ← members.need? "markdown" fun value =>
    value.asArray?.bind fun items => items.mapM Fragment.ofJson?
  return ⟨fragment, ← members.need? "text" Json.asString?,
    ← members.need? "refs" Json.asStrings?, ← members.need? "source" Json.asString?⟩

def leafOf? (id : String) (kind : Leaf) (members : Object) : Option Node :=
  (members.need? "data" Json.asObject?).map (.leaf id kind)

def read? : (fuel : Nat) → Json → Option Node
  | 0, _ => none
  | fuel + 1, value => do
      let members ← value.asObject?
      let id ← members.need? "id" Json.asString?
      let name ← members.need? "type" kindName?
      let children : Option (List Node) :=
        members.need? "children" fun value =>
          value.asArray?.bind fun items => items.mapM (read? fuel)
      match name with
      | "markdown" => (passageOf? members).map (.passage id)
      | "button" => leafOf? id .button members
      | "input" => leafOf? id .input members
      | "markdown_editor" => leafOf? id .markdownEditor members
      | "markdown_viewer" => leafOf? id .markdownViewer members
      | "literal_code" =>
          return .code id (← members.need? "data" CodeInfo.ofJson?)
            (← members.need? "text" Json.asString?)
      | "hstack" =>
          return .container id (.hstack (← members.need? "data" Json.asObject?)) (← children)
      | "vstack" =>
          return .container id (.vstack (← members.need? "data" Json.asObject?)) (← children)
      | "each" => return .container id (.each (← members.need? "data" Loop.ofJson?)) (← children)
      | _ => none

def ofJson? (value : Json) : Option Node :=
  read? value.depth value

def ofJsons? (value : Json) : Option (List Node) :=
  value.asArray?.bind fun items => items.mapM ofJson?

end Node

namespace Dependencies

def ofJson? (value : Json) : Option Dependencies := do
  let members ← value.asRecord? ["queries", "globals"]
  return ⟨← members.need? "queries" Json.asStrings?, ← members.need? "globals" Json.asStrings?⟩

end Dependencies

namespace Meta

def sectionNames : List String :=
  ["hypernote", "queries", "actions", "components", "events", "dependencies"]

def ofJson? (value : Json) : Option Meta := do
  let members ← value.asObject?
  let part (key : String) : Option Object := members.getOr? key [] Json.asObject?
  return {
    identity := ← part "hypernote"
    queries := ← part "queries"
    actions := ← part "actions"
    components := ← part "components"
    events := ← part "events"
    dependencies := ← members.getOr? "dependencies" {} Dependencies.ofJson?
    extra := members.without sectionNames }

end Meta

namespace Document

def ofJson? (value : Json) : Option Document := do
  let members ← value.asRecord? ["version", "meta", "ast"]
  return ⟨← members.need? "version" Json.asString?, ← members.need? "meta" Meta.ofJson?,
    ← members.need? "ast" Node.ofJsons?⟩

end Document

end UiMarkdown
