import Mathlib.Data.List.Nodup
import UiMarkdown.Proofs.Document.Dependencies

/-!
# What nodes name

Every expression that counts towards the dependencies of nodes is visited, in
document order, together with the names that the loops around it give.  The
dependencies are what the visited expressions name, in the order in which they are
named first: nothing that a walk carries along is left behind or lost at the end of
a loop.
-/

namespace UiMarkdown

/-! ## Names in the order of their first occurrence -/

/-- The names that some items have, each once, in the order in which items have them first. -/
structure Gathered {α : Type} (Names : α → String → Prop) (items : List α)
    (names : List String) : Prop where
  nodup : names.Nodup
  mem_iff : ∀ name, name ∈ names ↔ ∃ item ∈ items, Names item name
  ordered : names.Pairwise fun a b =>
    ∃ before item after, items = before ++ item :: after ∧ Names item a ∧
      ∀ earlier ∈ before, ¬ Names earlier b

namespace Gathered

variable {α : Type} {Names : α → String → Prop} {items : List α} {names : List String}

theorem nil : Gathered Names [] [] where
  nodup := List.nodup_nil
  mem_iff := by simp
  ordered := List.Pairwise.nil

/-- Which name came first is settled once both have come. -/
theorem ordered_concat (gathered : Gathered Names items names) (item : α) :
    names.Pairwise fun a b =>
      ∃ before found after, items ++ [item] = before ++ found :: after ∧ Names found a ∧
        ∀ earlier ∈ before, ¬ Names earlier b := by
  refine gathered.ordered.imp ?_
  rintro a b ⟨before, found, after, rfl, named, none⟩
  exact ⟨before, found, after ++ [item], by simp, named, none⟩

theorem skip (gathered : Gathered Names items names) {item : α}
    (nameless : ∀ name, ¬ Names item name) : Gathered Names (items ++ [item]) names where
  nodup := gathered.nodup
  mem_iff name := by
    rw [gathered.mem_iff]
    simp [or_and_right, exists_or, nameless]
  ordered := gathered.ordered_concat item

theorem push (gathered : Gathered Names items names) {item : α} {name : String}
    (named : ∀ other, Names item other ↔ other = name) :
    Gathered Names (items ++ [item]) (Text.pushNew names name) where
  nodup := by
    rw [Text.pushNew]
    split
    · exact gathered.nodup
    · rename_i new
      rw [List.contains_iff_mem] at new
      exact List.nodup_append.2 ⟨gathered.nodup, List.nodup_singleton _,
        fun a mem b single same => new (List.mem_singleton.1 single ▸ same ▸ mem)⟩
  mem_iff other := by
    rw [Text.mem_pushNew_iff, gathered.mem_iff]
    simp [or_and_right, exists_or, named]
  ordered := by
    rw [Text.pushNew]
    split
    · exact gathered.ordered_concat item
    · rename_i new
      rw [List.contains_iff_mem] at new
      rw [List.pairwise_append]
      refine ⟨gathered.ordered_concat item, List.pairwise_singleton _ _, ?_⟩
      intro a mem b single
      -- `a` has been named, and nothing up to here has named `b`, which is the new name
      obtain ⟨found, here, isNamed⟩ := (gathered.mem_iff a).1 mem
      obtain ⟨before, after, rfl⟩ := List.append_of_mem here
      refine ⟨before, found, after ++ [item], by simp, isNamed, ?_⟩
      intro earlier early names
      rw [List.mem_singleton.1 single] at names
      exact new ((gathered.mem_iff name).2 ⟨earlier, List.mem_append_left _ early, names⟩)

end Gathered

/-! ## Visited expressions -/

/-- An expression, with the names that the loops around it give to their current values. -/
structure Visit where
  loopNames : List String
  expression : String
  deriving DecidableEq, Repr

namespace Visit

/-- An expression with no loop around it. -/
def bare (expression : String) : Visit :=
  ⟨[], expression⟩

def within (outer : List String) (visit : Visit) : Visit :=
  { visit with loopNames := visit.loopNames ++ outer }

/-- The expression names a query by a key below the root of all queries. -/
def NamesQuery (visit : Visit) (name : String) : Prop :=
  ∃ steps, Reference.ofText? visit.expression = some ⟨"queries", .key name :: steps⟩

/--
The expression names a global value: by a key below the root of all globals, or
by a root of its own that is not the name of a loop around it.
-/
def NamesGlobal (visit : Visit) (name : String) : Prop :=
  (∃ steps, Reference.ofText? visit.expression = some ⟨"globals", .key name :: steps⟩) ∨
    (name ≠ "queries" ∧ name ≠ "globals" ∧ name ∉ visit.loopNames ∧
      ∃ steps, Reference.ofText? visit.expression = some ⟨name, steps⟩)

theorem namesQuery_iff {visit : Visit} {root : String} {steps : List Segment}
    (read : Reference.ofText? visit.expression = some ⟨root, steps⟩) (name : String) :
    visit.NamesQuery name ↔ root = "queries" ∧ ∃ more, steps = .key name :: more := by
  simp [NamesQuery, read]

theorem namesGlobal_iff {visit : Visit} {root : String} {steps : List Segment}
    (read : Reference.ofText? visit.expression = some ⟨root, steps⟩) (name : String) :
    visit.NamesGlobal name ↔ (root = "globals" ∧ ∃ more, steps = .key name :: more) ∨
      (name ≠ "queries" ∧ name ≠ "globals" ∧ name ∉ visit.loopNames ∧ root = name) := by
  simp [NamesGlobal, read]

theorem within_within (inner outer : List String) (visit : Visit) :
    (visit.within inner).within outer = visit.within (inner ++ outer) := by
  rw [within, within, within, List.append_assoc]

end Visit

/-- The references in the texts of a payload, one for every place where one stands. -/
def Object.expressions (payload : Object) : List String :=
  (Json.stringsOfMembers payload).flatMap fun s => Template.references s.toList

namespace Node

mutual

/--
The visited expressions of a node in document order.  The data of a loop stands
before the loop and outside of it.
-/
def visits : Node → List Visit
  | .passage _ p => p.refs.map .bare
  | .leaf _ _ data => (Object.expressions data).map .bare
  | .code _ _ _ => []
  | .container _ (.hstack data) children | .container _ (.vstack data) children =>
      (Object.expressions data).map .bare ++ visitsOfAll children
  | .container _ (.each loop) children =>
      (loop.source :: Object.expressions loop.extra).map .bare ++
        (visitsOfAll children).map (Visit.within [loop.name])

def visitsOfAll : List Node → List Visit
  | [] => []
  | node :: more => visits node ++ visitsOfAll more

end

end Node

namespace Dependencies

/-- Dependencies are what visited expressions name. -/
structure Collected (visits : List Visit) (dependencies : Dependencies) : Prop where
  queries : Gathered Visit.NamesQuery visits dependencies.queries
  globals : Gathered Visit.NamesGlobal visits dependencies.globals

/-- What a step does with an expression: it adds the one name that the expression has, if any. -/
inductive Adds (visit : Visit) (step : Dependencies → Dependencies) : Prop where
  | nothing (noQuery : ∀ name, ¬ visit.NamesQuery name)
      (noGlobal : ∀ name, ¬ visit.NamesGlobal name) (same : ∀ before, step before = before)
  | query (name : String) (query : ∀ other, visit.NamesQuery other ↔ other = name)
      (noGlobal : ∀ name, ¬ visit.NamesGlobal name)
      (added : ∀ before, step before = before.addQuery name)
  | global (name : String) (noQuery : ∀ name, ¬ visit.NamesQuery name)
      (global : ∀ other, visit.NamesGlobal other ↔ other = name)
      (added : ∀ before, step before = before.addGlobal name)

/-- Recording adds what an expression names under the names of the loops around it. -/
theorem adds_record (aliases : List String) (expression : String) :
    Adds ⟨aliases, expression⟩ fun before => before.record aliases expression := by
  cases read : Reference.ofText? expression with
  | none =>
      refine .nothing (by simp [Visit.NamesQuery, read]) (by simp [Visit.NamesGlobal, read]) ?_
      simp [record, read]
  | some reference =>
      obtain ⟨root, steps⟩ := reference
      have visited : Reference.ofText? (Visit.mk aliases expression).expression =
          some ⟨root, steps⟩ := read
      have query := Visit.namesQuery_iff visited
      have global := Visit.namesGlobal_iff visited
      by_cases queries : root = "queries"
      · subst queries
        have noGlobal (name : String) : ¬ Visit.NamesGlobal ⟨aliases, expression⟩ name := by
          rw [global]
          rintro (⟨other, -⟩ | ⟨other, -, -, same⟩)
          · exact absurd other (by decide)
          · exact other same.symm
        cases steps with
        | nil =>
            exact .nothing (by simp [query]) noGlobal
              (by simp [record, read, Reference.queryId?])
        | cons step more =>
            cases step with
            | index position =>
                exact .nothing (by simp [query]) noGlobal
                  (by simp [record, read, Reference.queryId?])
            | key name =>
                exact .query name (by simp [query, eq_comm]) noGlobal
                  (by simp [record, read, Reference.queryId?])
      · have noQuery (name : String) : ¬ Visit.NamesQuery ⟨aliases, expression⟩ name := by
          rw [query]
          exact fun names => queries names.1
        by_cases globals : root = "globals"
        · subst globals
          have byKey (name : String) : Visit.NamesGlobal ⟨aliases, expression⟩ name ↔
              ∃ more, steps = .key name :: more := by
            rw [global]
            constructor
            · rintro (⟨-, key⟩ | ⟨-, other, -, same⟩)
              · exact key
              · exact absurd same.symm other
            · exact fun key => .inl ⟨rfl, key⟩
          cases steps with
          | nil => exact .nothing noQuery (by simp [byKey]) (by simp [record, read])
          | cons step more =>
              cases step with
              | index position =>
                  exact .nothing noQuery (by simp [byKey]) (by simp [record, read])
              | key name =>
                  exact .global name noQuery (by simp [byKey, eq_comm]) (by simp [record, read])
        · have byRoot (name : String) : Visit.NamesGlobal ⟨aliases, expression⟩ name ↔
              root = name ∧ root ∉ aliases := by
            rw [global]
            constructor
            · rintro (⟨other, -⟩ | ⟨-, -, free, rfl⟩)
              · exact absurd other globals
              · exact ⟨rfl, free⟩
            · rintro ⟨rfl, free⟩
              exact .inr ⟨queries, globals, free, rfl⟩
          by_cases isAlias : root ∈ aliases
          · exact .nothing noQuery (by simp [byRoot, isAlias])
              (by simp [record, read, queries, globals, isAlias])
          · exact .global root noQuery (by simp [byRoot, isAlias, eq_comm])
              (by simp [record, read, queries, globals, isAlias])

variable {visits : List Visit} {dependencies : Dependencies}

theorem Collected.record (collected : Collected visits dependencies) (aliases : List String)
    (expression : String) :
    Collected (visits ++ [⟨aliases, expression⟩]) (dependencies.record aliases expression) := by
  cases adds_record aliases expression with
  | nothing noQuery noGlobal same =>
      rw [same]
      exact ⟨collected.queries.skip noQuery, collected.globals.skip noGlobal⟩
  | query name query noGlobal added =>
      rw [added]
      exact ⟨collected.queries.push query, collected.globals.skip noGlobal⟩
  | global name noQuery global added =>
      rw [added]
      exact ⟨collected.queries.skip noQuery, collected.globals.push global⟩

theorem Collected.recordAll (collected : Collected visits dependencies) (aliases : List String)
    (expressions : List String) :
    Collected (visits ++ expressions.map (Visit.mk aliases))
      (dependencies.recordAll aliases expressions) := by
  rw [Dependencies.recordAll]
  induction expressions generalizing visits dependencies with
  | nil =>
      rw [List.map_nil, List.append_nil]
      exact collected
  | cons expression more ih =>
      have grown := ih (collected.record aliases expression)
      rw [List.append_assoc, List.singleton_append] at grown
      exact grown

/-! ## Recording once is enough -/

theorem recordAll_append (aliases : List String) (dependencies : Dependencies)
    (first more : List String) :
    dependencies.recordAll aliases (first ++ more) =
      (dependencies.recordAll aliases first).recordAll aliases more :=
  List.foldl_append

theorem addQuery_of_mem {name : String} (mem : name ∈ dependencies.queries) :
    dependencies.addQuery name = dependencies := by
  rw [addQuery, Text.pushNew, if_pos (List.contains_iff_mem.2 mem)]

theorem addGlobal_of_mem {name : String} (mem : name ∈ dependencies.globals) :
    dependencies.addGlobal name = dependencies := by
  rw [addGlobal, Text.pushNew, if_pos (List.contains_iff_mem.2 mem)]

/-- An expression that is recorded changes nothing when it is recorded again. -/
theorem record_recordAll_of_mem (aliases : List String) (dependencies : Dependencies)
    {expressions : List String} {expression : String} (mem : expression ∈ expressions) :
    (dependencies.recordAll aliases expressions).record aliases expression =
      dependencies.recordAll aliases expressions := by
  obtain ⟨before, after, rfl⟩ := List.append_of_mem mem
  have recorded : dependencies.recordAll aliases (before ++ expression :: after) =
      ((dependencies.recordAll aliases before).record aliases expression).recordAll aliases
        after :=
    recordAll_append aliases dependencies before (expression :: after)
  rw [recorded]
  cases adds_record aliases expression with
  | nothing _ _ same => exact same _
  | query name _ _ added =>
      have stays : (((dependencies.recordAll aliases before).record aliases expression).recordAll
          aliases after).Records (.query name) := by
        refine Records.recordAll ?_ aliases after
        rw [added]
        exact records_addQuery_iff.2 (.inr rfl)
      rw [added]
      exact addQuery_of_mem stays
  | global name _ _ added =>
      have stays : (((dependencies.recordAll aliases before).record aliases expression).recordAll
          aliases after).Records (.global name) := by
        refine Records.recordAll ?_ aliases after
        rw [added]
        exact records_addGlobal_iff.2 (.inr rfl)
      rw [added]
      exact addGlobal_of_mem stays

/-- Leaving out expressions that came before changes nothing. -/
theorem recordAll_foldl_pushNew (aliases : List String) (dependencies : Dependencies)
    (expressions seen : List String) :
    dependencies.recordAll aliases (expressions.foldl Text.pushNew seen) =
      (dependencies.recordAll aliases seen).recordAll aliases expressions := by
  induction expressions generalizing seen with
  | nil => rfl
  | cons expression more ih =>
      have step : dependencies.recordAll aliases (Text.pushNew seen expression) =
          (dependencies.recordAll aliases seen).record aliases expression := by
        rw [Text.pushNew]
        split
        · rename_i known
          rw [record_recordAll_of_mem aliases dependencies (List.contains_iff_mem.1 known)]
        · exact recordAll_append aliases dependencies seen [expression]
      rw [List.foldl_cons, ih, step]
      rfl

theorem recordAll_references (aliases : List String) (dependencies : Dependencies)
    (payload : Object) :
    dependencies.recordAll aliases (Object.references payload) =
      dependencies.recordAll aliases (Object.expressions payload) := by
  have once : Object.references payload = (Object.expressions payload).foldl Text.pushNew [] := by
    rw [Object.expressions, List.foldl_flatMap]
    rfl
  rw [once, recordAll_foldl_pushNew]
  rfl

/-! ## The walk -/

mutual

/-- Adding a node adds its visits, under the names of the loops around the node. -/
theorem Collected.addNode (aliases : List String) :
    (node : Node) → {visits : List Visit} → {dependencies : Dependencies} →
      Collected visits dependencies →
      Collected (visits ++ node.visits.map (Visit.within aliases))
        (dependencies.addNode aliases node)
  | .passage _ p, _, _, collected => by
      rw [Dependencies.addNode, Node.visits, List.map_map]
      exact collected.recordAll aliases p.refs
  | .leaf _ _ data, _, _, collected => by
      rw [Dependencies.addNode, Node.visits, List.map_map, recordAll_references]
      exact collected.recordAll aliases _
  | .code _ _ _, _, _, collected => by
      rw [Dependencies.addNode, Node.visits, List.map_nil, List.append_nil]
      exact collected
  | .container _ (.hstack data) children, _, _, collected
  | .container _ (.vstack data) children, _, _, collected => by
      rw [Dependencies.addNode, Node.visits, List.map_append, List.map_map, recordAll_references,
        ← List.append_assoc]
      exact Collected.addNodes aliases children (collected.recordAll aliases _)
  | .container _ (.each loop) children, _, _, collected => by
      rw [Dependencies.addNode, Node.visits, List.map_append, List.map_map, List.map_map,
        recordAll_references, ← List.append_assoc]
      have inside : Visit.within aliases ∘ Visit.within [loop.name] =
          Visit.within (loop.name :: aliases) :=
        funext (Visit.within_within [loop.name] aliases)
      rw [inside]
      exact Collected.addNodes (loop.name :: aliases) children
        (collected.recordAll aliases (loop.source :: Object.expressions loop.extra))

/-- Adding nodes adds their visits, under the names of the loops around them. -/
theorem Collected.addNodes (aliases : List String) :
    (nodes : List Node) → {visits : List Visit} → {dependencies : Dependencies} →
      Collected visits dependencies →
      Collected (visits ++ (Node.visitsOfAll nodes).map (Visit.within aliases))
        (dependencies.addNodes aliases nodes)
  | [], _, _, collected => by
      rw [Dependencies.addNodes, Node.visitsOfAll, List.map_nil, List.append_nil]
      exact collected
  | node :: more, _, _, collected => by
      rw [Dependencies.addNodes, Node.visitsOfAll, List.map_append, ← List.append_assoc]
      exact Collected.addNodes aliases more (Collected.addNode aliases node collected)

end

end Dependencies

end UiMarkdown
