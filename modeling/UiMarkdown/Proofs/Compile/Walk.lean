import UiMarkdown.Proofs.Compile.Group
import UiMarkdown.Proofs.Document.Mark

/-!
# The walk through a tree

The walk through the tree that blocks build meets the blocks themselves: stray
closing fences are gone, runs of Markdown are one passage each, and the closing
fences that are missing stand at the end.
-/

namespace UiMarkdown

/-! ## The marks of groups -/

namespace Body

/-- The fragment of blocks without raw pieces. -/
def fragmentOf (body : Body) (run : List Markdown.Placed) : List Fragment :=
  match Markdown.Block.toFragments (run.map (·.block)) with
  | .ok nodes => Fragment.normalize (Fragment.restoreAll body.mask (Fragment.mergeText nodes))
  | .error _ => []

/-- The passage that holds exactly the given blocks. -/
def passageOf (body : Body) (run : List Markdown.Placed) : Passage where
  fragment := body.fragmentOf run
  text := String.ofList (Fragment.flatten (body.fragmentOf run))
  refs := Fragment.references (body.fragmentOf run) (Fragment.flatten (body.fragmentOf run))
  source := String.ofList (body.sourceOf run)

/-- The marks of a run, which may vanish, or the mark of a fence. -/
def marksOfGroup (body : Body) : Part.Group → List Mark
  | .run blocks =>
      if (body.fragmentOf blocks).isEmpty && (body.sourceOf blocks).isEmpty then []
      else [.passage (body.passageOf blocks)]
  | .fence (.leaf kind) source => [.leaf kind (body.payload source)]
  | .fence (.opening kind) source => [.opening (.ofPayload kind (body.payload source))]
  | .fence (.closing _) _ => [.closing]
  | .fence (.code info) source => [.code info (String.ofList (body.mask.restore source))]

/-- Blocks without raw pieces are a passage, unless they leave nothing. -/
theorem passage?_of_rawPieces {run : List Markdown.Placed} (body : Body)
    (markdown : ∀ placed ∈ run, placed.block.rawPieces = []) :
    body.passage? run = .ok
      (if (body.fragmentOf run).isEmpty && (body.sourceOf run).isEmpty then none
      else some (body.passageOf run)) := by
  have converted := Markdown.Block.raises_toFragments (run.map (·.block))
  rw [(Markdown.Block.rawPiecesOfAll_eq_nil_iff _).2 (by simpa using markdown)] at converted
  obtain ⟨nodes, converted⟩ := converted
  rw [passage?, passageOf, fragmentOf, converted]
  dsimp only
  split <;> rfl

end Body

/-! ## The marks of a stack -/

namespace Stack

/-- The marks before the innermost open container, and its own. -/
def openMarks : List OpenContainer → List Mark
  | [] => []
  | container :: more =>
      openMarks more ++ (Node.marksOfAll container.before.reverse ++ [.opening container.frame])

def marks (stack : Stack) : List Mark :=
  openMarks stack.containers ++ Node.marksOfAll stack.nodes.reverse

theorem marks_add (stack : Stack) (node : String → Node) :
    (stack.add node).marks = stack.marks ++ (node stack.nextId).marks := by
  simp [add, marks]

theorem marks_openFrame (stack : Stack) (frame : Frame) :
    (stack.openFrame frame).marks = stack.marks ++ [.opening frame] := by
  simp [openFrame, marks, openMarks]

theorem marks_close {stack : Stack} (opened : stack.containers ≠ []) :
    stack.close.marks = stack.marks ++ [.closing] := by
  cases containers : stack.containers with
  | nil => exact absurd containers opened
  | cons container more => simp [close, containers, marks, openMarks, Node.marks]

theorem marksOfAll_closeAll (nodes : List Node) (containers : List OpenContainer) :
    Node.marksOfAll (closeAll nodes containers).reverse =
      openMarks containers ++ Node.marksOfAll nodes.reverse ++
        List.replicate containers.length .closing := by
  induction containers generalizing nodes with
  | nil => simp [closeAll, openMarks]
  | cons container more ih =>
      rw [closeAll, ih, List.length_cons, List.replicate_succ]
      simp [openMarks, Node.marks]

/-- Finishing a stack adds nothing but the marks that are missing. -/
theorem marksOfAll_finish (stack : Stack) :
    Node.marksOfAll stack.finish =
      stack.marks ++ List.replicate stack.containers.length .closing :=
  marksOfAll_closeAll stack.nodes stack.containers

end Stack

namespace Body

/-- A fence that finds what it needs adds its mark. -/
theorem marks_applyFence (body : Body) (stack : Stack) (directive : Directive)
    (source : List Char) (finds : ∀ kind, directive = .closing kind → stack.containers ≠ []) :
    (body.applyFence stack directive source).marks =
      stack.marks ++ body.marksOfGroup (.fence directive source) := by
  cases directive with
  | leaf kind => exact stack.marks_add _
  | opening kind => exact stack.marks_openFrame _
  | closing kind => exact Stack.marks_close (finds kind rfl)
  | code info => exact stack.marks_add _

/-- Ending a run adds the marks of the run and opens or closes nothing. -/
theorem flush_of_rawPieces (body : Body) (stack : Stack) (run : List Markdown.Placed)
    (markdown : ∀ placed ∈ run, placed.block.rawPieces = []) :
    ∃ flushed, body.flush stack run = .ok flushed ∧
      flushed.containers = stack.containers ∧
      flushed.marks = stack.marks ++
        (if run.isEmpty then [] else [Part.Group.run run]).flatMap body.marksOfGroup := by
  cases run with
  | nil => exact ⟨stack, rfl, rfl, by simp⟩
  | cons block run =>
      rw [flush, passage?_of_rawPieces body markdown]
      by_cases empty : ((body.fragmentOf (block :: run)).isEmpty &&
          (body.sourceOf (block :: run)).isEmpty) = true
      · refine ⟨stack, by simp [empty, Except.map], rfl, by simp [marksOfGroup, empty]⟩
      · refine ⟨stack.add (.passage · (body.passageOf (block :: run))),
          by simp [empty, Except.map], rfl, ?_⟩
        rw [Stack.marks_add]
        simp [marksOfGroup, empty, Node.marks]

theorem length_containers_applyFence (body : Body) (stack : Stack) (directive : Directive)
    (source : List Char) :
    (body.applyFence stack directive source).containers.length =
      (Part.fence directive source).depthAfter stack.containers.length := by
  cases directive with
  | leaf kind => rfl
  | opening kind => rfl
  | closing kind =>
      rw [applyFence, Stack.close]
      cases containers : stack.containers with
      | nil => simp [containers, Part.depthAfter]
      | cons container more => simp [Part.depthAfter]
  | code info => rfl

theorem build_stray {body : Body} {stack : Stack} {run : List Markdown.Placed}
    {directive : Directive} {source : List Char} (more : List Part)
    (stray : (Part.fence directive source).isStray stack.containers.length = true) :
    body.build stack run (.fence directive source :: more) = body.build stack run more := by
  cases directive with
  | closing kind =>
      have closed : stack.containers = [] := by simpa [Part.isStray] using stray
      rw [build]
      exact closed
  | _ => cases stray

theorem build_fence {body : Body} {stack : Stack} {run : List Markdown.Placed}
    {directive : Directive} {source : List Char} (more : List Part)
    (finds : (Part.fence directive source).isStray stack.containers.length = false) :
    body.build stack run (.fence directive source :: more) = (do
      let stack ← body.flush stack run.reverse
      body.build (body.applyFence stack directive source) [] more) := by
  rw [build]
  intro kind same closed
  simp [Part.isStray, same, closed] at finds

/--
Building adds the marks of all groups, of which the run that has already begun
is the first, and leaves as many containers open as the fences say.
-/
theorem build_of_rawPieces (body : Body) (parts : List Part) (stack : Stack)
    (run : List Markdown.Placed)
    (begun : ∀ placed ∈ run, placed.block.rawPieces = [])
    (markdown : ∀ part ∈ parts, part.rawPieces = []) :
    ∃ built, body.build stack run parts = .ok built ∧
      built.marks = stack.marks ++
        (Part.groups (run.reverse.map .plain ++
          Part.withoutStray stack.containers.length parts)).flatMap body.marksOfGroup ∧
      built.containers.length = parts.foldl Part.depthAfter stack.containers.length := by
  induction parts generalizing stack run with
  | nil =>
      obtain ⟨flushed, done, same, marks⟩ :=
        flush_of_rawPieces body stack run.reverse (by simpa using begun)
      refine ⟨flushed, by rw [build, done], ?_, by rw [same, List.foldl_nil]⟩
      rw [marks, Part.withoutStray, List.append_nil, Part.groups_plain]
  | cons part more ih =>
      rw [List.forall_mem_cons] at markdown
      rw [Part.withoutStray, List.foldl_cons]
      cases part with
      | plain block =>
          obtain ⟨built, done, marks, depth⟩ := ih stack (block :: run)
            (List.forall_mem_cons.2 ⟨markdown.1, begun⟩) markdown.2
          refine ⟨built, by rw [build, done], ?_, depth⟩
          rw [marks]
          simp [Part.isStray, Part.depthAfter]
      | fence directive source =>
          cases stray : (Part.fence directive source).isStray stack.containers.length with
          | true =>
              rw [build_stray more stray, Part.depthAfter_of_isStray stray]
              exact ih stack run begun markdown.2
          | false =>
              obtain ⟨flushed, done, same, marks⟩ :=
                flush_of_rawPieces body stack run.reverse (by simpa using begun)
              obtain ⟨built, done', marks', depth⟩ :=
                ih (body.applyFence flushed directive source) [] (by simp) markdown.2
              rw [length_containers_applyFence, same] at marks' depth
              refine ⟨built, by rw [build_fence more stray, done]; exact done', ?_, depth⟩
              have finds : ∀ kind, directive = .closing kind → flushed.containers ≠ [] := by
                rintro kind rfl closed
                rw [same] at closed
                simp [Part.isStray, closed] at stray
              rw [marks', marks_applyFence body flushed directive source finds, marks,
                if_neg Bool.false_ne_true, List.singleton_append, Part.groups_append_fence,
                List.flatMap_append, List.flatMap_cons, List.reverse_nil, List.map_nil,
                List.nil_append]
              simp only [List.append_assoc]

end Body

namespace Body

/-! ## Blocks with raw Html build nothing -/

theorem rawPieces_of_flush {body : Body} {stack flushed : Stack} {run : List Markdown.Placed}
    (done : body.flush stack run = .ok flushed) :
    ∀ placed ∈ run, placed.block.rawPieces = [] := by
  cases run with
  | nil => exact List.forall_mem_nil _
  | cons block run =>
      have converted := Markdown.Block.raises_toFragments ((block :: run).map (·.block))
      cases pieces : Markdown.Block.rawPiecesOfAll ((block :: run).map (·.block)) with
      | nil =>
          rw [Markdown.Block.rawPiecesOfAll_eq_nil_iff] at pieces
          simpa using pieces
      | cons piece more =>
          rw [pieces, Markdown.Raises] at converted
          rw [flush, passage?, converted] at done
          cases done

theorem rawPieces_of_build {body : Body} {stack built : Stack} {run : List Markdown.Placed}
    {parts : List Part} (done : body.build stack run parts = .ok built) :
    (∀ placed ∈ run, placed.block.rawPieces = []) ∧ ∀ part ∈ parts, part.rawPieces = [] := by
  induction parts generalizing stack run with
  | nil =>
      rw [build] at done
      exact ⟨by simpa using rawPieces_of_flush done, List.forall_mem_nil _⟩
  | cons part more ih =>
      rw [List.forall_mem_cons]
      cases part with
      | plain block =>
          rw [build] at done
          obtain ⟨begun, later⟩ := ih done
          rw [List.forall_mem_cons] at begun
          exact ⟨begun.2, begun.1, later⟩
      | fence directive source =>
          cases stray : (Part.fence directive source).isStray stack.containers.length with
          | true =>
              rw [build_stray more stray] at done
              exact ⟨(ih done).1, rfl, (ih done).2⟩
          | false =>
              rw [build_fence more stray] at done
              cases ended : body.flush stack run.reverse with
              | error error =>
                  rw [ended] at done
                  cases done
              | ok flushed =>
                  rw [ended] at done
                  exact ⟨by simpa using rawPieces_of_flush ended, rfl, (ih done).2⟩

theorem rawPieces_partOf (body : Body) (placed : Markdown.Placed) :
    (body.partOf placed).rawPieces = placed.block.rawPieces := by
  obtain ⟨block, first, last⟩ := placed
  rw [partOf]
  split
  · rename_i info literal isFence
    rw [show block = _ from isFence, Markdown.Block.rawPieces, Part.rawPieces]
  · rfl

theorem rawPieces_parts_iff {body : Body} {blocks : List Markdown.Placed} :
    (∀ part ∈ blocks.map body.partOf, part.rawPieces = []) ↔
      ∀ placed ∈ blocks, placed.block.rawPieces = [] := by
  simp only [List.forall_mem_map, rawPieces_partOf]

/-- The marks that blocks amount to: those of their groups, and the ends that are missing. -/
def marksOf (body : Body) (blocks : List Markdown.Placed) : List Mark :=
  (Part.groups (Part.withoutStray 0 (blocks.map body.partOf))).flatMap body.marksOfGroup ++
    List.replicate ((blocks.map body.partOf).foldl Part.depthAfter 0) .closing

/-- A tree that was built has the marks of its blocks. -/
theorem marksOfAll_treeOf {body : Body} {blocks : List Markdown.Placed} {tree : List Node}
    (done : body.treeOf blocks = .ok tree) : Node.marksOfAll tree = body.marksOf blocks := by
  rw [treeOf] at done
  cases grown : body.build {} [] (blocks.map body.partOf) with
  | error error =>
      rw [grown] at done
      cases done
  | ok stack =>
      obtain ⟨built, done', marks, depth⟩ := body.build_of_rawPieces _ {} []
        (List.forall_mem_nil _) (rawPieces_of_build grown).2
      rw [grown] at done done'
      cases done
      cases done'
      rw [Stack.marksOfAll_finish, marks, depth]
      rfl

/-- Blocks build a tree exactly when none of them has raw Html. -/
theorem exists_treeOf_iff {body : Body} {blocks : List Markdown.Placed} :
    (∃ tree, body.treeOf blocks = .ok tree) ↔
      ∀ placed ∈ blocks, placed.block.rawPieces = [] := by
  rw [← @rawPieces_parts_iff body]
  constructor
  · rintro ⟨tree, done⟩
    rw [treeOf] at done
    cases grown : body.build {} [] (blocks.map body.partOf) with
    | error error =>
        rw [grown] at done
        cases done
    | ok stack => exact (rawPieces_of_build grown).2
  · intro markdown
    obtain ⟨built, done, -⟩ := body.build_of_rawPieces _ {} [] (List.forall_mem_nil _) markdown
    refine ⟨built.finish, ?_⟩
    rw [treeOf, done]
    rfl

end Body

/-! ## Passages stand apart -/

namespace Body

/-- Only a run is a passage. -/
theorem isRun_of_isPassage {body : Body} {group : Part.Group} {mark : Mark}
    (mem : mark ∈ body.marksOfGroup group) (passage : mark.isPassage) : group.isRun := by
  cases group with
  | run blocks => rfl
  | fence directive source =>
      cases directive <;>
        · rw [marksOfGroup, List.mem_singleton] at mem
          rw [mem] at passage
          cases passage

/-- If the first mark of groups is a passage, the first group is a run. -/
theorem isRun_of_mem_head? {body : Body} {groups : List Part.Group} {mark : Mark}
    (first : mark ∈ (groups.flatMap body.marksOfGroup).head?) (passage : mark.isPassage) :
    ∃ group ∈ groups.head?, group.isRun := by
  cases groups with
  | nil => cases first
  | cons group rest =>
      refine ⟨group, rfl, ?_⟩
      cases group with
      | run blocks => rfl
      | fence directive source =>
          cases directive <;>
            · rw [List.flatMap_cons, marksOfGroup] at first
              cases first
              cases passage

/-- Groups among which no two runs are neighbours have no neighbouring passages. -/
theorem apart_marksOfGroups (body : Body) {groups : List Part.Group}
    (apart : groups.IsChain fun a b => ¬ (a.isRun ∧ b.isRun)) :
    (groups.flatMap body.marksOfGroup).IsChain Mark.Apart := by
  induction groups with
  | nil => exact .nil
  | cons group rest ih =>
      rw [List.isChain_cons] at apart
      rw [List.flatMap_cons, List.isChain_append]
      refine ⟨?_, ih apart.2, ?_⟩
      · cases group with
        | run blocks =>
            rw [marksOfGroup]
            split
            · exact .nil
            · exact .singleton _
        | fence directive source => cases directive <;> exact .singleton _
      · rintro last isLast next isNext ⟨lastPassage, nextPassage⟩
        obtain ⟨neighbour, head, isRun⟩ := isRun_of_mem_head? isNext nextPassage
        exact apart.1 neighbour head
          ⟨isRun_of_isPassage (List.mem_of_mem_getLast? isLast) lastPassage, isRun⟩

end Body

/-! ## Passages are runs -/

namespace Body

/-- A group has one mark at most, and only a run is a passage. -/
theorem of_marksOfGroup_eq_cons {body : Body} {group : Part.Group} {mark : Mark}
    {others : List Mark} (marks : body.marksOfGroup group = mark :: others) :
    others = [] ∧ ∀ p, mark = .passage p → ∃ run, group = .run run ∧ p = body.passageOf run := by
  cases group with
  | run blocks =>
      rw [marksOfGroup] at marks
      split at marks
      · cases marks
      · cases marks
        exact ⟨rfl, fun p same => ⟨blocks, rfl, (Mark.passage.inj same).symm⟩⟩
  | fence directive source =>
      cases directive <;>
        · rw [marksOfGroup] at marks
          cases marks
          exact ⟨rfl, fun p same => by cases same⟩

/-- Where the marks of groups meet a passage, the passage is a run. -/
theorem exists_run_of_marks {body : Body} {groups : List Part.Group} {depth : Nat}
    {before after : List Mark} {p : Passage}
    (walk : groups.flatMap body.marksOfGroup ++ List.replicate depth .closing =
      before ++ .passage p :: after) :
    ∃ first run more, groups = first ++ .run run :: more ∧
      before = first.flatMap body.marksOfGroup ∧ p = body.passageOf run := by
  induction groups generalizing before with
  | nil =>
      have mem : .passage p ∈ List.replicate depth Mark.closing := by
        rw [← List.nil_append (List.replicate depth _), ← List.flatMap_nil (f := body.marksOfGroup),
          walk]
        exact List.mem_append_right _ List.mem_cons_self
      cases List.eq_of_mem_replicate mem
  | cons group rest ih =>
      have later {front : List Mark}
          (walk : rest.flatMap body.marksOfGroup ++ List.replicate depth .closing =
            front ++ .passage p :: after) (split : before = body.marksOfGroup group ++ front) :
          ∃ first run more, group :: rest = first ++ .run run :: more ∧
            before = first.flatMap body.marksOfGroup ∧ p = body.passageOf run := by
        obtain ⟨first, run, more, rfl, rfl, same⟩ := ih walk
        exact ⟨group :: first, run, more, rfl, by rw [split, List.flatMap_cons], same⟩
      rw [List.flatMap_cons, List.append_assoc] at walk
      cases marks : body.marksOfGroup group with
      | nil =>
          rw [marks] at walk
          exact later walk (by rw [marks, List.nil_append])
      | cons mark others =>
          obtain ⟨rfl, isRun⟩ := of_marksOfGroup_eq_cons marks
          rw [marks, List.singleton_append] at walk
          cases before with
          | nil =>
              obtain ⟨run, rfl, same⟩ := isRun p (List.cons.inj walk).1
              exact ⟨[], run, rest, rfl, rfl, same⟩
          | cons front before =>
              rw [List.cons_append, List.cons.injEq] at walk
              obtain ⟨rfl, walk⟩ := walk
              exact later walk (by rw [marks, List.singleton_append])

theorem eq_of_partOf_eq_plain {body : Body} {placed block : Markdown.Placed}
    (same : body.partOf placed = .plain block) : placed = block := by
  rw [partOf] at same
  split at same
  · cases same
  · exact Part.plain.inj same

/-- The blocks of a run are among those that the parts come from. -/
theorem mem_of_mem_run {body : Body} {blocks run : List Markdown.Placed}
    {groups : List Part.Group}
    (runs : Part.LongestRuns groups (Part.withoutStray 0 (blocks.map body.partOf)))
    (isGroup : .run run ∈ groups) {placed : Markdown.Placed} (mem : placed ∈ run) :
    placed ∈ blocks := by
  have part : Part.plain placed ∈ Part.withoutStray 0 (blocks.map body.partOf) := by
    rw [← runs.joined]
    exact List.mem_flatMap.2 ⟨.run run, isGroup, List.mem_map_of_mem mem⟩
  obtain ⟨block, isBlock, same⟩ :=
    List.mem_map.1 ((Part.withoutStray_sublist 0 _).subset part)
  rwa [← eq_of_partOf_eq_plain same]

/-- A passage of a tree is a longest run among the blocks that the tree is built from. -/
theorem exists_run_of_treeOf {body : Body} {blocks : List Markdown.Placed} {tree : List Node}
    (built : body.treeOf blocks = .ok tree) {before after : List Mark} {p : Passage}
    (walk : Node.marksOfAll tree = before ++ .passage p :: after) :
    ∃ groups run more,
      Part.LongestRuns (groups ++ .run run :: more)
        (Part.withoutStray 0 (blocks.map body.partOf)) ∧
      before = groups.flatMap body.marksOfGroup ∧ p = body.passageOf run := by
  rw [marksOfAll_treeOf built, marksOf] at walk
  obtain ⟨groups, run, more, split, front, same⟩ := exists_run_of_marks walk
  have runs := Part.longestRuns_groups (Part.withoutStray 0 (blocks.map body.partOf))
  rw [split] at runs
  exact ⟨groups, run, more, runs, front, same⟩

end Body

/-! ## The walk -/

namespace Body

/--
The walk through the tree of blocks without raw Html meets the blocks in their
order: closing fences that find nothing open are gone, every longest run of
Markdown is one passage or leaves nothing, every other fence is one mark, and
the closing marks that are missing stand at the end.  So no two passages are
neighbours in the tree.
-/
theorem walk_treeOf (body : Body) (blocks : List Markdown.Placed)
    (markdown : ∀ placed ∈ blocks, placed.block.rawPieces = []) :
    ∃ tree groups,
      body.treeOf blocks = .ok tree ∧
      Part.LongestRuns groups (Part.withoutStray 0 (blocks.map body.partOf)) ∧
      Node.marksOfAll tree = groups.flatMap body.marksOfGroup ++
        List.replicate ((blocks.map body.partOf).foldl Part.depthAfter 0) .closing ∧
      Node.SpacedAll tree := by
  obtain ⟨tree, done⟩ := exists_treeOf_iff.2 markdown
  have runs := Part.longestRuns_groups (Part.withoutStray 0 (blocks.map body.partOf))
  have walked := marksOfAll_treeOf done
  rw [marksOf] at walked
  refine ⟨tree, _, done, runs, walked, ?_⟩
  refine Node.spacedAll_of_marks _ ?_
  rw [walked, List.isChain_append]
  refine ⟨body.apart_marksOfGroups runs.apart,
    List.isChain_replicate_of_rel _ fun both => Bool.false_ne_true both.1, ?_⟩
  rintro last - next head ⟨-, passage⟩
  rw [List.eq_of_mem_replicate (List.mem_of_mem_head? head)] at passage
  cases passage

/-- A closing fence too many, one of another kind, and a container that stays open. -/
theorem walk_treeOf_of_mismatched :
    let body : Body := { lines := ["a".toList, "b".toList], mask := ⟨[], []⟩, document := [] }
    let text (line : Nat) : Markdown.Placed := ⟨.paragraph [.text ['x']], line, line⟩
    let fence (info : String) : Markdown.Placed := ⟨.code true info.toList [], 1, 1⟩
    let blocks := [text 1, fence "each.end", text 2, fence "hstack.start", fence "each.end",
      text 1, fence "vstack.start", fence "button"]
    (∀ placed ∈ blocks, placed.block.rawPieces = []) ∧
      ∃ tree groups,
        body.treeOf blocks = .ok tree ∧
        Part.LongestRuns groups (Part.withoutStray 0 (blocks.map body.partOf)) ∧
        Node.marksOfAll tree = groups.flatMap body.marksOfGroup ++ [.closing] ∧
        Node.SpacedAll tree := by
  intro body text fence blocks
  have markdown : ∀ placed ∈ blocks, placed.block.rawPieces = [] := by
    simp [blocks, text, fence, Markdown.Block.rawPieces, Markdown.Inline.rawPieces,
      Markdown.Inline.rawPiecesOfAll]
  have unclosed : (blocks.map body.partOf).foldl Part.depthAfter 0 = 1 := by decide +kernel
  have walk := body.walk_treeOf blocks markdown
  rw [unclosed] at walk
  exact ⟨markdown, walk⟩

end Body

end UiMarkdown
