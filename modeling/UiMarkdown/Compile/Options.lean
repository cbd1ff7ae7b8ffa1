import UiMarkdown.Document.Decode

/-!
# Options of compilation

Which extensions of Markdown count, and which authors a query may name by a
sigil.
-/

namespace UiMarkdown

structure CompileOptions where
  tables : Bool := true
  strikethrough : Bool := true
  tasklists : Bool := true
  legacyAuthors : List String := ["$user.pubkey", "$target.pubkey", "$contacts"]
  deriving DecidableEq, Repr

namespace CompileOptions

def ofJson? (value : Json) : Option CompileOptions := do
  let members ← value.asRecord? ["tables", "strikethrough", "tasklists", "legacy_author_placeholders"]
  let defaults : CompileOptions := {}
  return {
    tables := ← members.getOr? "tables" defaults.tables Json.asBool?
    strikethrough := ← members.getOr? "strikethrough" defaults.strikethrough Json.asBool?
    tasklists := ← members.getOr? "tasklists" defaults.tasklists Json.asBool?
    legacyAuthors :=
      ← members.getOr? "legacy_author_placeholders" defaults.legacyAuthors Json.asStrings? }

def toJson (options : CompileOptions) : Json :=
  Json.ofMembers [("tables", .bool options.tables), ("strikethrough", .bool options.strikethrough),
    ("tasklists", .bool options.tasklists),
    ("legacy_author_placeholders", .ofStrings options.legacyAuthors)]

end CompileOptions

end UiMarkdown
