import UiMarkdown.Document.Node

/-!
# Documents as Json

A node is an object whose `type` names its kind; an absent value has no member.
-/

namespace UiMarkdown

namespace Json

def ofMembers (members : List (String × Json)) : Json :=
  .obj (Object.ofList members)

def ofNat (n : Nat) : Json :=
  .num (.int n)

def ofStrings (items : List String) : Json :=
  .arr (items.map .str)

def optionalMember (key : String) : Option Json → List (String × Json)
  | some value => [(key, value)]
  | none => []

end Json

namespace Fragment

mutual

def toJson : Fragment → Json
  | .paragraph cs => kindWith "paragraph" [] (toJsons cs)
  | .heading depth cs => kindWith "heading" [("depth", .ofNat depth)] (toJsons cs)
  | .blockquote cs => kindWith "blockquote" [] (toJsons cs)
  | .list ordered start spread cs =>
      kindWith "list"
        ([("ordered", .bool ordered), ("spread", .bool spread)] ++
          Json.optionalMember "start" (start.map Json.ofNat)) (toJsons cs)
  | .listItem checked cs =>
      kindWith "listItem" (Json.optionalMember "checked" (checked.map Json.bool)) (toJsons cs)
  | .code lang value =>
      kind "code" (("value", .str value) :: Json.optionalMember "lang" (lang.map Json.str))
  | .thematicBreak => kind "thematicBreak" []
  | .table cs => kindWith "table" [] (toJsons cs)
  | .tableRow cs => kindWith "tableRow" [] (toJsons cs)
  | .tableCell cs => kindWith "tableCell" [] (toJsons cs)
  | .text value => kind "text" [("value", .str value)]
  | .emphasis cs => kindWith "emphasis" [] (toJsons cs)
  | .strong cs => kindWith "strong" [] (toJsons cs)
  | .delete cs => kindWith "delete" [] (toJsons cs)
  | .inlineCode value => kind "inlineCode" [("value", .str value)]
  | .lineBreak => kind "break" []
  | .link url title cs =>
      kindWith "link" (("url", .str url) :: Json.optionalMember "title" (title.map Json.str))
        (toJsons cs)
  | .image url title alt =>
      kind "image" ([("url", .str url), ("alt", .str alt)] ++
        Json.optionalMember "title" (title.map Json.str))
where
  /-- An object of a kind. -/
  kind (name : String) (members : List (String × Json)) : Json :=
    Json.ofMembers (("type", .str name) :: members)
  /-- An object of a kind with children. -/
  kindWith (name : String) (members : List (String × Json)) (children : List Json) : Json :=
    kind name (("children", .arr children) :: members)

def toJsons : List Fragment → List Json
  | [] => []
  | node :: more => toJson node :: toJsons more

end

end Fragment

namespace CodeInfo

def toJson (info : CodeInfo) : Json :=
  Json.ofMembers (("lang", .str info.lang) :: Json.optionalMember "meta" (info.extra.map Json.str))

end CodeInfo

namespace Loop

def toJson (loop : Loop) : Json :=
  Json.ofMembers ([("source", .str loop.source), ("as", .str loop.name)] ++ loop.extra)

end Loop

namespace Frame

def dataJson : Frame → Json
  | .hstack data | .vstack data => .obj data
  | .each loop => loop.toJson

end Frame

namespace Node

mutual

def toJson : Node → Json
  | .passage id p =>
      Json.ofMembers [("id", .str id), ("type", .str "markdown"),
        ("markdown", .arr (Fragment.toJsons p.fragment)), ("text", .str p.text),
        ("refs", .ofStrings p.refs), ("source", .str p.source)]
  | .leaf id kind data =>
      Json.ofMembers [("id", .str id), ("type", .str (leaf id kind data).typeName),
        ("data", .obj data)]
  | .code id info text =>
      Json.ofMembers [("id", .str id), ("type", .str "literal_code"), ("data", info.toJson),
        ("text", .str text)]
  | .container id frame cs =>
      Json.ofMembers [("id", .str id), ("type", .str (container id frame []).typeName),
        ("data", frame.dataJson), ("children", .arr (toJsons cs))]

def toJsons : List Node → List Json
  | [] => []
  | node :: more => toJson node :: toJsons more

end

end Node

namespace Dependencies

def toJson (dependencies : Dependencies) : Json :=
  Json.ofMembers [("queries", .ofStrings dependencies.queries),
    ("globals", .ofStrings dependencies.globals)]

end Dependencies

namespace Meta

def toJson (m : Meta) : Json :=
  Json.ofMembers ([("hypernote", .obj m.identity), ("queries", .obj m.queries),
    ("actions", .obj m.actions), ("components", .obj m.components), ("events", .obj m.events),
    ("dependencies", m.dependencies.toJson)] ++ m.extra)

end Meta

namespace Document

def toJson (document : Document) : Json :=
  Json.ofMembers [("version", .str document.version), ("meta", document.metadata.toJson),
    ("ast", .arr (Node.toJsons document.ast))]

end Document

end UiMarkdown
