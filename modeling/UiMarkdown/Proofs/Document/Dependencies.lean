import UiMarkdown.Proofs.Compile.Document
import UiMarkdown.Proofs.Compile.Walk
import UiMarkdown.Proofs.Template.Reading

/-!
# What dependencies record

The dependencies of a document record the entries that the references of its
nodes name.  A reference names its entry by a key; one that steps into a name
space by position names none.
-/

namespace UiMarkdown

namespace Reference

def entryNamed? (reference : Reference) : Option Entry :=
  if reference.root == "queries" then reference.queryId?.map .query
  else if reference.root == "globals" then
    match reference.segments with
    | .key name :: _ => some (.global name)
    | _ => none
  else some (.global reference.root)

end Reference

def Entry.ofText? (text : String) : Option Entry :=
  (Reference.ofText? text).bind Reference.entryNamed?

namespace Text

theorem mem_pushNew_iff {items : List String} {item other : String} :
    other ∈ pushNew items item ↔ other ∈ items ∨ other = item := by
  rw [pushNew]
  split
  · rename_i present
    rw [List.contains_iff_mem] at present
    constructor
    · exact .inl
    · rintro (mem | rfl)
      · exact mem
      · exact present
  · rw [List.mem_append, List.mem_singleton]

/-- Pushing texts one by one keeps what is there and adds each of them. -/
theorem mem_foldl_pushNew_iff {items more : List String} {other : String} :
    other ∈ more.foldl pushNew items ↔ other ∈ items ∨ other ∈ more := by
  induction more generalizing items with
  | nil => simp
  | cons item more ih => rw [List.foldl_cons, ih, mem_pushNew_iff, List.mem_cons, or_assoc]

end Text

namespace Dependencies

/-- An entry is among dependencies. -/
def Records (dependencies : Dependencies) : Entry → Prop
  | .query name => name ∈ dependencies.queries
  | .global name => name ∈ dependencies.globals

instance (dependencies : Dependencies) (entry : Entry) : Decidable (dependencies.Records entry) :=
  match entry with
  | .query name => inferInstanceAs (Decidable (name ∈ dependencies.queries))
  | .global name => inferInstanceAs (Decidable (name ∈ dependencies.globals))

theorem records_addQuery_iff {dependencies : Dependencies} {name : String} {entry : Entry} :
    (dependencies.addQuery name).Records entry ↔
      dependencies.Records entry ∨ entry = .query name := by
  cases entry <;> simp [Records, addQuery, Text.mem_pushNew_iff]

theorem records_addGlobal_iff {dependencies : Dependencies} {name : String} {entry : Entry} :
    (dependencies.addGlobal name).Records entry ↔
      dependencies.Records entry ∨ entry = .global name := by
  cases entry <;> simp [Records, addGlobal, Text.mem_pushNew_iff]

/-- Recording a text keeps all entries. -/
theorem Records.record {dependencies : Dependencies} {entry : Entry}
    (recorded : dependencies.Records entry) (aliases : List String) (text : String) :
    (dependencies.record aliases text).Records entry := by
  rw [Dependencies.record]
  split
  · exact recorded
  · rename_i reference reads
    split
    · split
      · exact records_addQuery_iff.2 (.inl recorded)
      · exact recorded
    · split
      · split
        · exact records_addGlobal_iff.2 (.inl recorded)
        · exact recorded
      · split
        · exact recorded
        · exact records_addGlobal_iff.2 (.inl recorded)

/-- Outside of all loops, recording a text adds the entry that it names. -/
theorem records_record {dependencies : Dependencies} {text : String} {entry : Entry}
    (names : Entry.ofText? text = some entry) : (dependencies.record [] text).Records entry := by
  obtain ⟨reference, reads, names⟩ := Option.bind_eq_some_iff.1 names
  rw [record, reads]
  dsimp only
  rw [Reference.entryNamed?] at names
  split
  · rename_i queries
    rw [if_pos queries] at names
    obtain ⟨name, key, rfl⟩ := Option.map_eq_some_iff.1 names
    rw [key]
    exact records_addQuery_iff.2 (.inr rfl)
  · rename_i queries
    rw [if_neg queries] at names
    split
    · rename_i globals
      rw [if_pos globals] at names
      cases segments : reference.segments with
      | nil =>
          rw [segments] at names
          cases names
      | cons segment more =>
          rw [segments] at names
          cases segment with
          | index position => cases names
          | key name =>
              cases names
              exact records_addGlobal_iff.2 (.inr rfl)
    · rename_i globals
      rw [if_neg globals] at names
      cases names
      exact records_addGlobal_iff.2 (.inr rfl)

theorem Records.recordAll {dependencies : Dependencies} {entry : Entry}
    (recorded : dependencies.Records entry) (aliases : List String) (texts : List String) :
    (dependencies.recordAll aliases texts).Records entry := by
  rw [Dependencies.recordAll]
  induction texts generalizing dependencies with
  | nil => exact recorded
  | cons text more ih => exact ih (recorded.record aliases text)

theorem records_recordAll {dependencies : Dependencies} {texts : List String} {text : String}
    {entry : Entry} (mem : text ∈ texts) (names : Entry.ofText? text = some entry) :
    (dependencies.recordAll [] texts).Records entry := by
  rw [recordAll]
  induction texts generalizing dependencies with
  | nil => cases mem
  | cons first more ih =>
      obtain rfl | mem := List.mem_cons.1 mem
      · exact (records_record names).recordAll [] more
      · exact ih mem

mutual

/-- Adding what a node names keeps all entries. -/
theorem Records.addNode {entry : Entry} (aliases : List String) :
    (dependencies : Dependencies) → (node : Node) → dependencies.Records entry →
      (Dependencies.addNode aliases dependencies node).Records entry
  | _, .passage _ p, recorded => by
      rw [Dependencies.addNode]
      exact recorded.recordAll aliases p.refs
  | _, .leaf _ _ data, recorded => by
      rw [Dependencies.addNode]
      exact recorded.recordAll aliases _
  | _, .code _ _ _, recorded => by
      rw [Dependencies.addNode]
      exact recorded
  | _, .container _ (.hstack data) children, recorded => by
      rw [Dependencies.addNode]
      exact Records.addNodes aliases _ children (recorded.recordAll aliases _)
  | _, .container _ (.vstack data) children, recorded => by
      rw [Dependencies.addNode]
      exact Records.addNodes aliases _ children (recorded.recordAll aliases _)
  | _, .container _ (.each loop) children, recorded => by
      rw [Dependencies.addNode]
      exact Records.addNodes _ _ children
        ((recorded.record aliases loop.source).recordAll aliases _)

/-- Adding what nodes name keeps all entries. -/
theorem Records.addNodes {entry : Entry} (aliases : List String) :
    (dependencies : Dependencies) → (nodes : List Node) → dependencies.Records entry →
      (Dependencies.addNodes aliases dependencies nodes).Records entry
  | _, [], recorded => by
      rw [Dependencies.addNodes]
      exact recorded
  | dependencies, node :: more, recorded => by
      rw [Dependencies.addNodes]
      exact Records.addNodes aliases _ more (Records.addNode aliases dependencies node recorded)

end

end Dependencies

/-! ## Passages outside of loops -/

namespace Node

mutual

/-- The passages of a node that stand in no loop. -/
def openPassages : Node → List Passage
  | .passage _ p => [p]
  | .leaf _ _ _ | .code _ _ _ | .container _ (.each _) _ => []
  | .container _ (.hstack _) children | .container _ (.vstack _) children =>
      openPassagesOfAll children

def openPassagesOfAll : List Node → List Passage
  | [] => []
  | node :: more => openPassages node ++ openPassagesOfAll more

end

mutual

theorem mem_marks_of_openPassages {p : Passage} :
    (node : Node) → p ∈ node.openPassages → .passage p ∈ node.marks
  | .passage _ q, mem => by
      rw [openPassages, List.mem_singleton] at mem
      rw [marks, mem]
      exact List.mem_singleton_self _
  | .leaf _ _ _, mem | .code _ _ _, mem | .container _ (.each _) _, mem => by
      rw [openPassages] at mem
      cases mem
  | .container _ (.hstack _) children, mem | .container _ (.vstack _) children, mem => by
      rw [openPassages] at mem
      rw [marks]
      have inside := mem_marksOfAll_of_openPassages children mem
      exact List.mem_append_left _ (List.mem_cons_of_mem _ inside)

/-- Passages outside of loops are met on the walk. -/
theorem mem_marksOfAll_of_openPassages {p : Passage} :
    (nodes : List Node) → p ∈ openPassagesOfAll nodes → .passage p ∈ marksOfAll nodes
  | [], mem => by
      rw [openPassagesOfAll] at mem
      cases mem
  | node :: more, mem => by
      rw [openPassagesOfAll, List.mem_append] at mem
      rw [marksOfAll_cons, List.mem_append]
      exact mem.imp (mem_marks_of_openPassages node) (mem_marksOfAll_of_openPassages more)

end

mutual

theorem records_addNode_of_openPassages {entry : Entry} {text : String}
    (names : Entry.ofText? text = some entry) :
    (dependencies : Dependencies) → (node : Node) →
      (∃ p ∈ node.openPassages, text ∈ p.refs) →
      (Dependencies.addNode [] dependencies node).Records entry
  | _, .passage _ q, ⟨p, mem, stands⟩ => by
      rw [openPassages, List.mem_singleton] at mem
      rw [Dependencies.addNode]
      exact Dependencies.records_recordAll (mem ▸ stands) names
  | _, .leaf _ _ _, ⟨p, mem, _⟩ | _, .code _ _ _, ⟨p, mem, _⟩
  | _, .container _ (.each _) _, ⟨p, mem, _⟩ => by
      rw [openPassages] at mem
      cases mem
  | _, .container _ (.hstack _) children, open' | _, .container _ (.vstack _) children, open' => by
      rw [openPassages] at open'
      rw [Dependencies.addNode]
      exact records_addNodes_of_openPassages names _ children open'

/-- What the passages outside of loops refer to is recorded. -/
theorem records_addNodes_of_openPassages {entry : Entry} {text : String}
    (names : Entry.ofText? text = some entry) :
    (dependencies : Dependencies) → (nodes : List Node) →
      (∃ p ∈ openPassagesOfAll nodes, text ∈ p.refs) →
      (Dependencies.addNodes [] dependencies nodes).Records entry
  | _, [], ⟨p, mem, _⟩ => by
      rw [openPassagesOfAll] at mem
      cases mem
  | dependencies, node :: more, ⟨p, mem, stands⟩ => by
      rw [openPassagesOfAll, List.mem_append] at mem
      rw [Dependencies.addNodes]
      cases mem with
      | inl here =>
          exact Dependencies.Records.addNodes [] _ more
            (records_addNode_of_openPassages names dependencies node ⟨p, here, stands⟩)
      | inr later => exact records_addNodes_of_openPassages names _ more ⟨p, later, stands⟩

end

end Node

/-! ## The dependencies of a compiled document -/

/-- The references in the text of a passage are among those of its fragment. -/
theorem Fragment.mem_references_of_text {nodes : List Fragment} {text : List Char}
    {reference : String} (mem : reference ∈ Template.references text) :
    reference ∈ references nodes text := by
  have kept (urls refs : List String) (mem : reference ∈ refs) :
      reference ∈ urls.foldl (fun refs url => addReferences refs url.toList) refs := by
    induction urls generalizing refs with
    | nil => exact mem
    | cons url more ih => exact ih _ (Text.mem_foldl_pushNew_iff.2 (.inl mem))
  exact kept _ _ (Text.mem_foldl_pushNew_iff.2 (.inr mem))

/-- The passages of a tree that was built are runs of its blocks. -/
theorem Body.exists_run_of_passage {body : Body} {blocks : List Markdown.Placed}
    {tree : List Node} (done : body.treeOf blocks = .ok tree) {p : Passage}
    (mem : .passage p ∈ Node.marksOfAll tree) : ∃ run, p = body.passageOf run := by
  obtain ⟨before, after, walk⟩ := List.append_of_mem mem
  obtain ⟨groups, run, more, -, -, same⟩ := exists_run_of_treeOf done walk
  exact ⟨run, same⟩

namespace Document

/-- A compiled document is the tree of some blocks with the dependencies of the tree. -/
theorem exists_blocks_of_compile {options : CompileOptions} {source : List Char}
    {document : Document} (compiled : compile options source = .ok document) :
    ∃ (body : Body) (blocks : List Markdown.Placed), body.treeOf blocks = .ok document.ast ∧
      document.metadata.dependencies = Dependencies.ofNodes document.ast := by
  obtain ⟨metadata, ast, -, built, -, rfl⟩ := compile_eq_ok_iff.1 compiled
  exact ⟨_, _, built, rfl⟩

/-- The entries that the text of a passage names are recorded, unless it stands in a loop. -/
theorem records_of_named {options : CompileOptions} {source : List Char} {document : Document}
    (compiled : compile options source = .ok document) {p : Passage}
    (outside : p ∈ Node.openPassagesOfAll document.ast) {entry : Entry}
    (named : entry ∈ (Template.references p.text.toList).filterMap Entry.ofText?) :
    document.metadata.dependencies.Records entry := by
  obtain ⟨body, blocks, done, same⟩ := exists_blocks_of_compile compiled
  obtain ⟨run, rfl⟩ :=
    Body.exists_run_of_passage done (Node.mem_marksOfAll_of_openPassages _ outside)
  obtain ⟨text, stands, names⟩ := List.mem_filterMap.1 named
  rw [same, Dependencies.ofNodes]
  refine Node.records_addNodes_of_openPassages names _ _ ⟨_, outside, ?_⟩
  rw [Body.passageOf, String.toList_ofList] at stands
  exact Fragment.mem_references_of_text stands

end Document

/-! ## What suffices to render a text -/

namespace Dependencies

/-- Scopes that agree on what is recorded give a text the same rendering. -/
def Suffice (dependencies : Dependencies) (text : List Char) : Prop :=
  ∀ a b : Scope, (∀ entry, dependencies.Records entry → a.valueAt? entry = b.valueAt? entry) →
    a.interpolate .standard text = b.interpolate .standard text

/-- Dependencies suffice for a text exactly when they record all that it reads. -/
theorem suffice_iff_forall_entriesRead {dependencies : Dependencies} {text : List Char} :
    dependencies.Suffice text ↔
      ∀ entry ∈ Template.entriesRead .standard (Scope.guardEscapes text),
        dependencies.Records entry := by
  constructor
  · intro suffice entry reads
    by_contra missed
    obtain ⟨value, longer⟩ := Scope.exists_long_interpolate reads
      (({} : Scope).interpolate .standard text).length
    have agree : ∀ other, dependencies.Records other →
        (Scope.only entry value).valueAt? other = ({} : Scope).valueAt? other := by
      intro other recorded
      rw [Scope.valueAt?_empty]
      refine Scope.valueAt?_only_of_ne value ?_
      rintro rfl
      exact missed recorded
    rw [suffice _ _ agree] at longer
    exact Nat.lt_irrefl _ longer
  · intro recorded a b agree
    exact Scope.interpolate_congr fun entry reads => agree entry (recorded entry reads)

end Dependencies

namespace Document

/--
The dependencies of a compiled document suffice to render a passage outside of
loops exactly when every entry that is read at rendering, but that no reference
in the text as it stands names, is recorded for another reason.
-/
theorem dependencies_suffice_iff {options : CompileOptions} {source : List Char}
    {document : Document} (compiled : compile options source = .ok document) {p : Passage}
    (outside : p ∈ Node.openPassagesOfAll document.ast) :
    document.metadata.dependencies.Suffice p.text.toList ↔
      ∀ entry ∈ Template.entriesRead .standard (Scope.guardEscapes p.text.toList),
        entry ∉ (Template.references p.text.toList).filterMap Entry.ofText? →
          document.metadata.dependencies.Records entry := by
  rw [Dependencies.suffice_iff_forall_entriesRead]
  constructor
  · intro recorded entry reads _
    exact recorded entry reads
  · intro others entry reads
    by_cases named : entry ∈ (Template.references p.text.toList).filterMap Entry.ofText?
    · exact records_of_named compiled outside named
    · exact others entry reads named

/--
Escaped braces that open nothing hide the expression after them from the
dependencies, but not from the rendering.
-/
theorem dependencies_miss_after_escape :
    let text := "\\\x7b\x7b \x7b\x7b b \x7d\x7d"
    let p : Passage := ⟨[.paragraph [.text text]], text, [], text⟩
    let document := ofParts {} [.passage "n1" p]
    compile {} (text ++ "\n").toList = .ok document ∧
      p ∈ Node.openPassagesOfAll document.ast ∧
      ¬ document.metadata.dependencies.Suffice p.text.toList := by
  intro text p document
  have compiled : compile {} (text ++ "\n").toList = .ok document := by decide +kernel
  have outside : p ∈ Node.openPassagesOfAll document.ast := by decide +kernel
  refine ⟨compiled, outside, ?_⟩
  rw [dependencies_suffice_iff compiled outside]
  intro recorded
  have missed : ¬ document.metadata.dependencies.Records (.global "b") := by decide +kernel
  exact missed (recorded (.global "b") (by decide +kernel) (by decide +kernel))

/--
In particular they suffice for a text without escaped braces whose references
all enter their name space by a key.
-/
theorem dependencies_suffice_of_keys {options : CompileOptions} {source : List Char}
    {document : Document} (compiled : compile options source = .ok document) {p : Passage}
    (outside : p ∈ Node.openPassagesOfAll document.ast)
    (opening : ¬ '\\' :: Template.opening <:+: p.text.toList)
    (closing : ¬ '\\' :: Template.closing <:+: p.text.toList)
    (keys : ∀ text ∈ Template.references p.text.toList, ∀ reference ∈ Reference.ofText? text,
      reference.entryRead? = reference.entryNamed?) :
    document.metadata.dependencies.Suffice p.text.toList := by
  have unguarded : Scope.guardEscapes p.text.toList = p.text.toList := by
    rw [Scope.guardEscapes, Text.replace_of_absent _ opening, Text.replace_of_absent _ closing]
  rw [Dependencies.suffice_iff_forall_entriesRead, unguarded]
  intro entry reads
  obtain ⟨text, stands, reference, written, isRead⟩ := Template.exists_text_of_entriesRead reads
  refine records_of_named compiled outside (List.mem_filterMap.2 ⟨text, stands, ?_⟩)
  rw [Entry.ofText?, written, Option.bind_some, ← keys text stands reference written]
  exact isRead

end Document

end UiMarkdown
