import UiMarkdown.Proofs.Document.Mark
import UiMarkdown.Proofs.Json.Object

/-!
# Documents through Json

A document is read back from its own Json.  Its form has room for levels of eight
bits and list numbers of 64, and the members that an author adds may not take the
names of others; apart from that nothing is lost.
-/

namespace UiMarkdown

namespace Json

theorem asNatBelow?_int {n : Nat} (bound : Nat) (below : n < bound) :
    asNatBelow? bound (.num (.int n)) = some n := by
  simp [asNatBelow?, below]

/-- Reading a value takes at least one level. -/
theorem exists_succ_of_depth_le {value : Json} {fuel : Nat} (deep : value.depth ≤ fuel) :
    ∃ rest, fuel = rest + 1 := by
  refine Nat.exists_eq_succ_of_ne_zero fun zero => ?_
  rw [zero] at deep
  cases value <;> cases deep

end Json

/-! ## Fragments -/

namespace Fragment

mutual

/-- The numbers in a node have the size that their form has room for. -/
def Storable : Fragment → Prop
  | .heading depth cs => depth < 256 ∧ StorableAll cs
  | .list _ start _ cs => (∀ number ∈ start, number < 2 ^ 64) ∧ StorableAll cs
  | .paragraph cs | .blockquote cs | .listItem _ cs | .table cs | .tableRow cs | .tableCell cs
  | .emphasis cs | .strong cs | .delete cs | .link _ _ cs => StorableAll cs
  | .code _ _ | .thematicBreak | .text _ | .inlineCode _ | .lineBreak | .image _ _ _ => True

def StorableAll : List Fragment → Prop
  | [] => True
  | node :: more => Storable node ∧ StorableAll more

end

/-- The kind of an object of a kind, and all of its members. -/
theorem parts?_kind (nested : Bool) (name : String) {members : List (String × Json)}
    (free : ∀ member ∈ members, member.1 ≠ "type") :
    parts? nested (toJson.kind name members) =
      some (name, Object.ofList (("type", .str name) :: members)) := by
  have tag := Object.get?_ofList_append [("type", .str name)] free
  rw [List.reverse_singleton, Object.get?_cons, if_pos rfl, List.singleton_append] at tag
  rw [toJson.kind, Json.ofMembers, parts?, Object.need?, tag]
  rfl

theorem read?_kind {fuel : Nat} (nested : Bool) {name : String} {names : List String}
    {members : List (String × Json)} (isKind : kinds.lookup name = some names)
    (childless : "children" ∉ names) (free : ∀ member ∈ members, member.1 ≠ "type")
    (deep : (toJson.kind name members).depth ≤ fuel) :
    read? fuel nested (toJson.kind name members) =
      ofParts? name (Object.ofList (("type", .str name) :: members)) none := by
  obtain ⟨fuel, rfl⟩ := Json.exists_succ_of_depth_le deep
  rw [read?, parts?_kind nested name free]
  simp [isKind, childless]

/-- A node that holds nodes is read by reading these, which have fewer levels. -/
theorem read?_kindWith {fuel : Nat} (nested : Bool) {name : String} {names : List String}
    {members : List (String × Json)} {nodes : List Fragment}
    (isKind : kinds.lookup name = some names) (hasChildren : "children" ∈ names)
    (free : ∀ member ∈ members, member.1 ≠ "type" ∧ member.1 ≠ "children")
    (deep : (toJson.kindWith name members (toJsons nodes)).depth ≤ fuel)
    (read : ∀ {fuel}, Json.depthItems (toJsons nodes) ≤ fuel →
      (toJsons nodes).mapM (read? fuel true) = some nodes) :
    read? fuel nested (toJson.kindWith name members (toJsons nodes)) =
      ofParts? name
        (Object.ofList (("type", .str name) :: ("children", .arr (toJsons nodes)) :: members))
        (some nodes) := by
  have held := Object.get?_ofList_append [("type", .str name), ("children", .arr (toJsons nodes))]
    fun member mem => (free member mem).2
  have found : Object.get? [("type", .str name), ("children", .arr (toJsons nodes))].reverse
      "children" = some (.arr (toJsons nodes)) := rfl
  rw [found, List.cons_append, List.singleton_append] at held
  have others : ∀ member ∈ ("children", .arr (toJsons nodes)) :: members, member.1 ≠ "type" :=
    List.forall_mem_cons.2
      ⟨(by decide : "children" ≠ "type"), fun member mem => (free member mem).1⟩
  have levels : Json.depthItems (toJsons nodes) + 1 < fuel :=
    Nat.lt_of_lt_of_le (Json.depth_lt_of_get? held) deep
  obtain ⟨fuel, rfl⟩ := Nat.exists_eq_succ_of_ne_zero (Nat.ne_zero_of_lt levels)
  have children := read (Nat.le_of_lt (Nat.lt_of_succ_lt_succ levels))
  rw [read?, toJson.kindWith, parts?_kind nested name others]
  simp [isKind, hasChildren, childrenOf?, Object.need?, held, Json.asArray?, children]

mutual

/-- A node is read back from its Json, with as many levels of reading as the Json has. -/
theorem read?_toJson : (node : Fragment) → node.Storable → {fuel : Nat} → (nested : Bool) →
    node.toJson.depth ≤ fuel → read? fuel nested node.toJson = some node
  | .paragraph cs, storable, _, nested, deep | .blockquote cs, storable, _, nested, deep
  | .table cs, storable, _, nested, deep | .tableRow cs, storable, _, nested, deep
  | .tableCell cs, storable, _, nested, deep | .emphasis cs, storable, _, nested, deep
  | .strong cs, storable, _, nested, deep | .delete cs, storable, _, nested, deep => by
      rw [Storable] at storable
      rw [toJson] at deep ⊢
      rw [read?_kindWith nested rfl (by decide) (by simp) deep (mapM_read?_toJsons cs storable)]
      simp [ofParts?]
  | .heading depth cs, storable, _, nested, deep => by
      rw [Storable] at storable
      rw [toJson] at deep ⊢
      rw [read?_kindWith nested rfl (by decide) (by simp) deep (mapM_read?_toJsons cs storable.2)]
      simp [ofParts?, Object.need?, Object.get?_ofList, Object.get?_cons, Json.ofNat,
        Json.asNatBelow?_int 256 storable.1]
  | .list ordered start spread cs, storable, _, nested, deep => by
      rw [Storable] at storable
      rw [toJson] at deep ⊢
      rw [read?_kindWith nested rfl (by decide) (by cases start <;> simp [Json.optionalMember]) deep
        (mapM_read?_toJsons cs storable.2)]
      cases start with
      | none =>
          simp [ofParts?, Object.need?, Object.optional?, Object.get?_ofList, Object.get?_cons,
            Object.get?_nil, Json.asBool?, Json.optionalMember]
      | some number =>
          have read := Json.asNatBelow?_int 18446744073709551616 (storable.1 number rfl)
          simp [ofParts?, Object.need?, Object.optional?, Object.get?_ofList, Object.get?_cons,
            Json.asBool?, Json.optionalMember, Json.ofNat, read]
  | .listItem checked cs, storable, _, nested, deep => by
      rw [Storable] at storable
      rw [toJson] at deep ⊢
      rw [read?_kindWith nested rfl (by decide) (by cases checked <;> simp [Json.optionalMember])
        deep (mapM_read?_toJsons cs storable)]
      cases checked <;>
        simp [ofParts?, Object.optional?, Object.get?_ofList, Object.get?_cons, Object.get?_nil,
          Json.asBool?, Json.optionalMember]
  | .link url title cs, storable, _, nested, deep => by
      rw [Storable] at storable
      rw [toJson] at deep ⊢
      rw [read?_kindWith nested rfl (by decide) (by cases title <;> simp [Json.optionalMember])
        deep (mapM_read?_toJsons cs storable)]
      cases title <;>
        simp [ofParts?, Object.need?, Object.optional?, Object.get?_ofList, Object.get?_cons,
          Object.get?_nil, Json.asString?, Json.optionalMember]
  | .code lang value, _, _, nested, deep => by
      rw [toJson] at deep ⊢
      rw [read?_kind nested rfl (by decide) (by cases lang <;> simp [Json.optionalMember]) deep]
      cases lang <;>
        simp [ofParts?, Object.need?, Object.optional?, Object.get?_ofList, Object.get?_cons,
          Object.get?_nil, Json.asString?, Json.optionalMember]
  | .image url title alt, _, _, nested, deep => by
      rw [toJson] at deep ⊢
      rw [read?_kind nested rfl (by decide) (by cases title <;> simp [Json.optionalMember]) deep]
      cases title <;>
        simp [ofParts?, Object.need?, Object.optional?, Object.get?_ofList, Object.get?_cons,
          Object.get?_nil, Json.asString?, Json.optionalMember]
  | .thematicBreak, _, _, nested, deep | .lineBreak, _, _, nested, deep => by
      rw [toJson] at deep ⊢
      rw [read?_kind nested rfl (by decide) (by simp) deep]
      simp [ofParts?]
  | .text value, _, _, nested, deep | .inlineCode value, _, _, nested, deep => by
      rw [toJson] at deep ⊢
      rw [read?_kind nested rfl (by decide) (by simp) deep]
      simp [ofParts?, Object.need?, Object.get?_ofList, Object.get?_cons, Json.asString?]

theorem mapM_read?_toJsons : (nodes : List Fragment) → StorableAll nodes → {fuel : Nat} →
    Json.depthItems (toJsons nodes) ≤ fuel → (toJsons nodes).mapM (read? fuel true) = some nodes
  | [], _, fuel, _ => by
      rw [toJsons, List.mapM_nil]
      rfl
  | node :: more, storable, fuel, deep => by
      rw [StorableAll] at storable
      rw [toJsons, Json.depthItems] at deep
      rw [toJsons, List.mapM_cons,
        read?_toJson node storable.1 true (Nat.le_trans (Nat.le_max_left _ _) deep),
        mapM_read?_toJsons more storable.2 (Nat.le_trans (Nat.le_max_right _ _) deep)]
      rfl

end

theorem mapM_ofJson?_toJsons {nodes : List Fragment} (storable : StorableAll nodes) :
    (toJsons nodes).mapM ofJson? = some nodes := by
  induction nodes with
  | nil =>
      rw [toJsons, List.mapM_nil]
      rfl
  | cons node more ih =>
      rw [StorableAll] at storable
      rw [toJsons, List.mapM_cons, ofJson?,
        read?_toJson node storable.1 true (Nat.le_refl _), ih storable.2]
      rfl

end Fragment

/-! ## Nodes -/

namespace Json

theorem asStrings?_ofStrings (items : List String) : asStrings? (ofStrings items) = some items := by
  rw [ofStrings, asStrings?, asArray?, Option.bind_some]
  induction items with
  | nil => rfl
  | cons item more ih =>
      rw [List.map_cons, List.mapM_cons, ih]
      rfl

end Json

theorem CodeInfo.ofJson?_toJson (info : CodeInfo) : ofJson? info.toJson = some info := by
  obtain ⟨lang, extra⟩ := info
  cases extra <;>
    simp [toJson, ofJson?, Json.ofMembers, Json.asRecord?, Object.need?, Object.optional?,
      Object.get?_ofList, Object.get?_cons, Object.get?_nil, Json.asString?, Json.optionalMember]

/-- The further data of a loop has an order and leaves the names of the loop to it. -/
structure Loop.Storable (loop : Loop) : Prop where
  ascending : Object.Ascending loop.extra
  apart : ∀ member ∈ loop.extra, member.1 ∉ ["source", "as"]

theorem Loop.ofJson?_toJson {loop : Loop} (storable : loop.Storable) :
    ofJson? loop.toJson = some loop := by
  obtain ⟨source, name, extra⟩ := loop
  obtain ⟨ascending, apart⟩ := storable
  have named : ∀ member ∈ [("source", Json.str source), ("as", .str name)],
      member.1 ∈ ["source", "as"] := by
    simp
  have rest := Object.without_ofList_append ascending apart named
  have get {key : String} (isName : key ∈ ["source", "as"]) :=
    Object.get?_ofList_append [("source", .str source), ("as", .str name)]
      fun member mem same => apart member mem (same ▸ isName)
  simp only [List.cons_append, List.nil_append] at rest get
  simp [toJson, ofJson?, Json.ofMembers, Json.asObject?, Object.need?, get, rest,
    Object.get?_cons, Json.asString?]

/-- The numbers of a passage are of the right size, and the data of a loop takes no names. -/
def Mark.Storable : Mark → Prop
  | .passage p => Fragment.StorableAll p.fragment
  | .opening (.each loop) => loop.Storable
  | .opening (.hstack _) | .opening (.vstack _) | .leaf _ _ | .code _ _ | .closing => True

namespace Node

theorem passageOf?_toJson {p : Passage} (storable : Fragment.StorableAll p.fragment)
    {members : Object}
    (fragment : members.get? "markdown" = some (.arr (Fragment.toJsons p.fragment)))
    (text : members.get? "text" = some (.str p.text))
    (refs : members.get? "refs" = some (.ofStrings p.refs))
    (source : members.get? "source" = some (.str p.source)) : passageOf? members = some p := by
  simp [passageOf?, Object.need?, fragment, text, refs, source, Json.asArray?, Json.asString?,
    Json.asStrings?_ofStrings, Fragment.mapM_ofJson?_toJsons storable]

mutual

/-- A node is read back from its Json, with as many levels of reading as the Json has. -/
theorem read?_toJson : (node : Node) → (∀ mark ∈ node.marks, mark.Storable) → {fuel : Nat} →
    node.toJson.depth ≤ fuel → read? fuel node.toJson = some node
  | .passage id p, storable, fuel, deep => by
      rw [marks, List.forall_mem_singleton] at storable
      rw [toJson] at deep ⊢
      obtain ⟨fuel, rfl⟩ := Json.exists_succ_of_depth_le deep
      have read : passageOf? (Object.ofList [("id", .str id), ("type", .str "markdown"),
          ("markdown", .arr (Fragment.toJsons p.fragment)), ("text", .str p.text),
          ("refs", .ofStrings p.refs), ("source", .str p.source)]) = some p := by
        apply passageOf?_toJson storable <;> simp [Object.get?_ofList, Object.get?_cons]
      rw [read?]
      simp [Json.ofMembers, Json.asObject?, Object.need?, Object.get?_ofList, Object.get?_cons,
        Json.asString?, kindName?, read]
  | .leaf id kind data, _, fuel, deep => by
      rw [toJson] at deep ⊢
      obtain ⟨fuel, rfl⟩ := Json.exists_succ_of_depth_le deep
      rw [read?]
      cases kind <;>
        simp [Json.ofMembers, Json.asObject?, Object.need?, Object.get?_ofList, Object.get?_cons,
          Json.asString?, kindName?, typeName, leafOf?]
  | .code id info text, _, fuel, deep => by
      rw [toJson] at deep ⊢
      obtain ⟨fuel, rfl⟩ := Json.exists_succ_of_depth_le deep
      rw [read?]
      simp [Json.ofMembers, Json.asObject?, Object.need?, Object.get?_ofList, Object.get?_cons,
        Json.asString?, kindName?, CodeInfo.ofJson?_toJson]
  | .container id frame children, storable, fuel, deep => by
      rw [marks, List.cons_append, List.forall_mem_cons, List.forall_mem_append] at storable
      rw [toJson] at deep ⊢
      have held : Object.get? (Object.ofList [("id", .str id),
          ("type", .str (container id frame []).typeName), ("data", frame.dataJson),
          ("children", .arr (toJsons children))]) "children" = some (.arr (toJsons children)) := by
        simp [Object.get?_ofList, Object.get?_cons]
      have levels : Json.depthItems (toJsons children) + 1 < fuel :=
        Nat.lt_of_lt_of_le (Json.depth_lt_of_get? held) deep
      obtain ⟨fuel, rfl⟩ := Nat.exists_eq_succ_of_ne_zero (Nat.ne_zero_of_lt levels)
      have read := mapM_read?_toJsons children storable.2.1
        (Nat.le_of_lt (Nat.lt_of_succ_lt_succ levels))
      rw [read?]
      cases frame with
      | hstack data | vstack data =>
          simp [Json.ofMembers, Json.asObject?, Object.need?, Object.get?_ofList, Object.get?_cons,
            Json.asString?, kindName?, typeName, Frame.dataJson, Json.asArray?, read]
      | each loop =>
          simp [Json.ofMembers, Json.asObject?, Object.need?, Object.get?_ofList, Object.get?_cons,
            Json.asString?, kindName?, typeName, Frame.dataJson, Json.asArray?, read,
            Loop.ofJson?_toJson storable.1]

theorem mapM_read?_toJsons : (nodes : List Node) → (∀ mark ∈ marksOfAll nodes, mark.Storable) →
    {fuel : Nat} → Json.depthItems (toJsons nodes) ≤ fuel →
    (toJsons nodes).mapM (read? fuel) = some nodes
  | [], _, fuel, _ => by
      rw [toJsons, List.mapM_nil]
      rfl
  | node :: more, storable, fuel, deep => by
      rw [marksOfAll_cons, List.forall_mem_append] at storable
      rw [toJsons, Json.depthItems] at deep
      rw [toJsons, List.mapM_cons,
        read?_toJson node storable.1 (Nat.le_trans (Nat.le_max_left _ _) deep),
        mapM_read?_toJsons more storable.2 (Nat.le_trans (Nat.le_max_right _ _) deep)]
      rfl

end

end Node

/-! ## Documents -/

theorem Node.mapM_ofJson?_toJsons {nodes : List Node}
    (storable : ∀ mark ∈ marksOfAll nodes, mark.Storable) :
    (toJsons nodes).mapM ofJson? = some nodes := by
  induction nodes with
  | nil =>
      rw [toJsons, List.mapM_nil]
      rfl
  | cons node more ih =>
      rw [marksOfAll_cons, List.forall_mem_append] at storable
      rw [toJsons, List.mapM_cons, ofJson?, read?_toJson node storable.1 (Nat.le_refl _),
        ih storable.2]
      rfl

theorem Dependencies.ofJson?_toJson (dependencies : Dependencies) :
    ofJson? dependencies.toJson = some dependencies := by
  simp [toJson, ofJson?, Json.ofMembers, Json.asRecord?, Object.need?, Object.get?_ofList,
    Object.get?_cons, Json.asStrings?_ofStrings]

/-- The further data of metadata has an order and leaves the names of the sections to them. -/
structure Meta.Storable (m : Meta) : Prop where
  ascending : Object.Ascending m.extra
  apart : ∀ member ∈ m.extra, member.1 ∉ sectionNames

/-- The sections of metadata as members under their names. -/
def Meta.sections (m : Meta) : List (String × Json) :=
  [("hypernote", .obj m.identity), ("queries", .obj m.queries), ("actions", .obj m.actions),
    ("components", .obj m.components), ("events", .obj m.events),
    ("dependencies", m.dependencies.toJson)]

theorem Meta.toJson_eq (m : Meta) : m.toJson = Json.ofMembers (m.sections ++ m.extra) :=
  rfl

theorem Meta.ofJson?_toJson {m : Meta} (storable : m.Storable) : ofJson? m.toJson = some m := by
  have named : ∀ member ∈ m.sections, member.1 ∈ sectionNames := by
    simp [sections, sectionNames]
  have rest := Object.without_ofList_append storable.ascending storable.apart named
  have get (key : String) (isName : key ∈ sectionNames) :=
    Object.get?_ofList_append m.sections fun member mem same =>
      storable.apart member mem (same ▸ isName)
  rw [toJson_eq, ofJson?, Json.ofMembers, Json.asObject?]
  simp only [Option.bind_eq_bind, Option.bind_some, Object.getOr?]
  rw [get "hypernote" (by decide), get "queries" (by decide), get "actions" (by decide),
    get "components" (by decide), get "events" (by decide), get "dependencies" (by decide), rest]
  simp [sections, Json.asObject?, Object.get?_cons, Dependencies.ofJson?_toJson]

namespace Document

/-- The data of a document that comes with names of its own takes none of those that have a
meaning, and its numbers have the size that their form has room for. -/
structure Storable (document : Document) : Prop where
  metadata : document.metadata.Storable
  marks : ∀ mark ∈ Node.marksOfAll document.ast, mark.Storable

theorem ofJson?_toJson {document : Document} (storable : document.Storable) :
    ofJson? document.toJson = some document := by
  simp [toJson, ofJson?, Json.ofMembers, Json.asRecord?, Object.need?, Object.get?_ofList,
    Object.get?_cons, Json.asString?, Meta.ofJson?_toJson storable.metadata, Node.ofJsons?,
    Json.asArray?, Node.mapM_ofJson?_toJsons storable.marks]

end Document

end UiMarkdown
