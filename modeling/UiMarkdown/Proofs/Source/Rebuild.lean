import UiMarkdown.Proofs.Compile.Fragment
import UiMarkdown.Proofs.Document.Outline
import UiMarkdown.Proofs.Mask.Lossless
import UiMarkdown.Proofs.Source.Directive
import UiMarkdown.Proofs.Text.Line
import UiMarkdown.Source.Writer

/-!
# Nodes from their own blocks

The blocks that are written for nodes build nodes with the same outline: every
block of Markdown is a run of its own, every fence is read as what it was
written for, and the closing fences are where containers end.
-/

namespace UiMarkdown

namespace Fence

/-- A body as it stands in its fence, with its last line ended. -/
def ended (body : List Char) : List Char :=
  body ++ if body.isEmpty || body.getLast? == some '\n' then [] else ['\n']

theorem ended_of_endsLine {body : List Char} (ends : Text.EndsLine body) : ended body = body := by
  rw [ended, if_pos, List.append_nil]
  rw [Bool.or_eq_true, List.isEmpty_iff, beq_iff_eq]
  cases last : body.getLast? with
  | none => exact .inl (List.getLast?_eq_none_iff.1 last)
  | some c => exact .inr (by rw [ends c last])

end Fence

/-- A block of the source of nodes: Markdown, or a fence with its info and its body. -/
inductive Written where
  | markdown (text : List Char)
  | fence (info body : List Char)
  deriving DecidableEq, Repr

namespace Written

def text : Written → List Char
  | .markdown text => text
  | .fence info body => Fence.write info body

/--
What a block is read as: Markdown as a run of blocks, of which one leaves a node,
none is a fence and none has raw Html, and a fence as itself, on whatever lines
it stands.
-/
inductive ReadAs : Written → List Markdown.Placed → Prop where
  | markdown {text : List Char} {run : List Markdown.Placed}
      (left : ∃ placed ∈ run, placed.block.leaves = true)
      (apart : ∀ placed ∈ run, ∀ info literal, placed.block ≠ .code true info literal)
      (markdown : ∀ placed ∈ run, placed.block.rawPieces = []) : ReadAs (.markdown text) run
  | fence (info body : List Char) (first last : Nat) :
      ReadAs (.fence info body) [⟨.code true info (Fence.ended body), first, last⟩]

/-- The group of parts that a block is read as. -/
def group : Written → List Markdown.Placed → Part.Group
  | .markdown _, run => .run run
  | .fence info body, _ => .fence (Directive.ofInfo info) (Fence.ended body)

def outline : Written → Mark
  | .markdown _ => .passage .bare
  | .fence info body =>
      match Directive.ofInfo info with
      | .leaf kind => .leaf kind []
      | .opening kind => .opening (.ofPayload kind [])
      | .closing _ => .closing
      | .code code => .code code (String.ofList (Fence.ended body))

end Written

namespace Node

mutual

def written : Node → List Written
  | .passage _ p => ((passageBlock? p).map Written.markdown).toList
  | .leaf _ kind data => [.fence kind.tag.toList (Payload.write data)]
  | .code _ info text => [.fence info.toInfo text.toList]
  | .container _ frame children =>
      .fence frame.container.openTag.toList (Payload.write frame.toPayload) ::
        writtenOfAll children ++ [.fence frame.container.closeTag.toList []]

def writtenOfAll : List Node → List Written
  | [] => []
  | node :: more => written node ++ writtenOfAll more

end

mutual

theorem map_text_written : (node : Node) → node.written.map Written.text = node.blocks
  | .passage _ p => by
      rw [written, blocks]
      cases passageBlock? p <;> rfl
  | .leaf _ _ _ | .code _ _ _ => by
      rw [written, blocks, List.map_singleton, Written.text]
  | .container _ _ children => by
      rw [written, blocks, ← map_text_writtenOfAll children]
      simp [Written.text]

/-- The blocks of nodes are the texts of what is written. -/
theorem map_text_writtenOfAll :
    (nodes : List Node) → (writtenOfAll nodes).map Written.text = blocksOfAll nodes
  | [] => by rw [writtenOfAll, blocksOfAll, List.map_nil]
  | node :: more => by
      rw [writtenOfAll, blocksOfAll, List.map_append, map_text_written node,
        map_text_writtenOfAll more]

end

mutual

/--
The passages of a node have Markdown, and its code samples have a language and
further info that can be read, and a text whose last line is ended.
-/
def Writable : Node → Prop
  | .passage _ p => (passageBlock? p).isSome
  | .leaf _ _ _ => True
  | .code _ info text =>
      (∃ read, Directive.ofInfo read = .code info) ∧ Text.EndsLine text.toList
  | .container _ _ children => WritableAll children

def WritableAll : List Node → Prop
  | [] => True
  | node :: more => Writable node ∧ WritableAll more

end

mutual

/-- What is written for a node stands for the marks of the node, one by one. -/
theorem map_outline_written : (node : Node) → node.Writable →
    node.written.map Written.outline = node.marks.map Mark.outline
  | .passage _ p, writable => by
      rw [Writable, Option.isSome_iff_exists] at writable
      obtain ⟨block, written⟩ := writable
      rw [Node.written, marks, written]
      rfl
  | .leaf _ kind _, _ => by
      rw [written, marks, List.map_singleton, List.map_singleton, Written.outline,
        Directive.ofInfo_tag, Mark.outline]
  | .code _ info text, writable => by
      rw [Writable] at writable
      obtain ⟨⟨read, isCode⟩, ends⟩ := writable
      rw [written, marks, List.map_singleton, List.map_singleton, Written.outline,
        Directive.ofInfo_toInfo isCode, Mark.outline]
      dsimp only
      rw [Fence.ended_of_endsLine ends, String.ofList_toList]
  | .container _ frame children, writable => by
      rw [Writable] at writable
      rw [written, marks]
      simp only [List.map_append, List.map_cons, List.map_nil]
      rw [map_outline_writtenOfAll children writable, Written.outline, Directive.ofInfo_openTag,
        Written.outline, Directive.ofInfo_closeTag]
      rfl

/-- What is written for nodes stands for the marks of the nodes, one by one. -/
theorem map_outline_writtenOfAll : (nodes : List Node) → WritableAll nodes →
    (writtenOfAll nodes).map Written.outline = (marksOfAll nodes).map Mark.outline
  | [], _ => by rw [writtenOfAll, marksOfAll_nil, List.map_nil, List.map_nil]
  | node :: more, writable => by
      rw [WritableAll] at writable
      rw [writtenOfAll, marksOfAll_cons, List.map_append, List.map_append,
        map_outline_written node writable.1, map_outline_writtenOfAll more writable.2]

end

end Node

/-! ## Balanced parts -/

namespace Part

/-- Parts that close what they open and nothing else. -/
def Balanced (parts : List Part) : Prop :=
  ∀ depth, withoutStray depth parts = parts ∧ parts.foldl depthAfter depth = depth

namespace Balanced

theorem nil : Balanced [] :=
  fun _ => ⟨rfl, rfl⟩

theorem append {parts more : List Part} (first : Balanced parts) (second : Balanced more) :
    Balanced (parts ++ more) := by
  intro depth
  rw [withoutStray_append, List.foldl_append, (first depth).1, (first depth).2]
  exact ⟨by rw [(second depth).1], (second depth).2⟩

/-- A part that neither opens nor closes. -/
theorem singleton {part : Part} (stays : ∀ depth, part.depthAfter depth = depth)
    (found : ∀ depth, part.isStray depth = false) : Balanced [part] := by
  intro depth
  simp [withoutStray, found, stays]

theorem run (blocks : List Markdown.Placed) : Balanced (blocks.map .plain) := by
  induction blocks with
  | nil => exact nil
  | cons block blocks ih => exact append (singleton (fun _ => rfl) fun _ => rfl) ih

/-- Balanced parts between an opening and a closing fence. -/
theorem enclose {parts : List Part} (inside : Balanced parts) (opened closed : Container)
    (first last : List Char) :
    Balanced (.fence (.opening opened) first :: parts ++ [.fence (.closing closed) last]) := by
  intro depth
  rw [List.cons_append, withoutStray, withoutStray_append, List.foldl_cons, List.foldl_append,
    depthAfter, (inside (depth + 1)).1, (inside (depth + 1)).2]
  simp [withoutStray, isStray, depthAfter]

end Balanced

/-- A run joins no fence behind it. -/
theorem groups_append_of_fence {run : List Markdown.Placed} {more : List Part} (nonempty : run ≠ [])
    (apart : ∀ next ∈ more.head?, ∃ directive source, next = .fence directive source) :
    groups (run.map .plain ++ more) = .run run :: groups more := by
  have some : run.isEmpty = false := by
    rwa [Bool.eq_false_iff, ne_eq, List.isEmpty_iff]
  cases more with
  | nil =>
      rw [List.append_nil, groups_plain, some]
      rfl
  | cons next more =>
      obtain ⟨directive, source, rfl⟩ := apart next rfl
      rw [groups_append_fence, some]
      rfl

end Part

/-! ## Reading -/

theorem exists_of_forall₂_append {α β : Type} {R : α → β → Prop} {as more : List α}
    {bs : List β} (both : List.Forall₂ R (as ++ more) bs) :
    ∃ here there, bs = here ++ there ∧ List.Forall₂ R as here ∧ List.Forall₂ R more there := by
  induction as generalizing bs with
  | nil => exact ⟨[], bs, rfl, .nil, both⟩
  | cons a as ih =>
      rw [List.cons_append, List.forall₂_cons_left_iff] at both
      obtain ⟨b, bs, first, later, rfl⟩ := both
      obtain ⟨here, there, rfl, firsts, seconds⟩ := ih later
      exact ⟨b :: here, there, rfl, .cons first firsts, seconds⟩

namespace Body

def partsOf (body : Body) (runs : List (List Markdown.Placed)) : List Part :=
  runs.flatten.map body.partOf

theorem partsOf_cons (body : Body) (run : List Markdown.Placed)
    (more : List (List Markdown.Placed)) :
    body.partsOf (run :: more) = run.map body.partOf ++ body.partsOf more := by
  rw [partsOf, List.flatten_cons, List.map_append, ← partsOf]

theorem partsOf_append (body : Body) (runs more : List (List Markdown.Placed)) :
    body.partsOf (runs ++ more) = body.partsOf runs ++ body.partsOf more := by
  rw [partsOf, List.flatten_append, List.map_append, ← partsOf, ← partsOf]

/-- Blocks that are no fences are plain parts. -/
theorem map_partOf_of_apart (body : Body) {run : List Markdown.Placed}
    (apart : ∀ placed ∈ run, ∀ info literal, placed.block ≠ .code true info literal) :
    run.map body.partOf = run.map .plain := by
  refine List.map_congr_left fun placed mem => ?_
  rw [partOf]
  split
  · rename_i info literal isFence
    exact absurd isFence (apart placed mem info literal)
  · rfl

variable {body : Body}

/-- Without expressions a fence is what its info says. -/
theorem partOf_fence (unmasked : body.mask.spans = []) (info literal : List Char)
    (first last : Nat) :
    body.partOf ⟨.code true info literal, first, last⟩ =
      .fence (Directive.ofInfo info) literal := by
  rw [partOf]
  dsimp only
  rw [Mask.restore_of_unmasked unmasked]

theorem parts_of_readAs_fence (unmasked : body.mask.spans = []) {info source : List Char}
    {run : List Markdown.Placed} (read : Written.ReadAs (.fence info source) run) :
    run.map body.partOf = [.fence (Directive.ofInfo info) (Fence.ended source)] := by
  cases read with
  | fence _ _ first last => rw [List.map_singleton, partOf_fence unmasked]

mutual

/-- What is read for a node is balanced. -/
theorem balanced_written (unmasked : body.mask.spans = []) : (node : Node) → node.Writable →
    ∀ {runs : List (List Markdown.Placed)}, List.Forall₂ Written.ReadAs node.written runs →
      Part.Balanced (body.partsOf runs)
  | .passage _ p, writable, runs, read => by
      rw [Node.Writable, Option.isSome_iff_exists] at writable
      obtain ⟨block, written⟩ := writable
      rw [Node.written, written] at read
      obtain ⟨run, rest, first, last, rfl⟩ := List.forall₂_cons_left_iff.1 read
      cases last
      cases first with
      | markdown _ apart _ =>
          rw [partsOf_cons, map_partOf_of_apart body apart]
          exact (Part.Balanced.run run).append .nil
  | .leaf _ kind _, _, runs, read => by
      rw [Node.written] at read
      obtain ⟨run, rest, first, last, rfl⟩ := List.forall₂_cons_left_iff.1 read
      cases last
      rw [partsOf_cons, parts_of_readAs_fence unmasked first, Directive.ofInfo_tag]
      exact .singleton (fun _ => rfl) fun _ => rfl
  | .code _ info text, writable, runs, read => by
      rw [Node.Writable] at writable
      obtain ⟨⟨info', isCode⟩, -⟩ := writable
      rw [Node.written] at read
      obtain ⟨run, rest, first, last, rfl⟩ := List.forall₂_cons_left_iff.1 read
      cases last
      rw [partsOf_cons, parts_of_readAs_fence unmasked first, Directive.ofInfo_toInfo isCode]
      exact .singleton (fun _ => rfl) fun _ => rfl
  | .container _ frame children, writable, runs, read => by
      rw [Node.Writable] at writable
      rw [Node.written, List.cons_append] at read
      obtain ⟨opened, rest, first, later, rfl⟩ := List.forall₂_cons_left_iff.1 read
      obtain ⟨inside, closed, rfl, inner, outer⟩ := exists_of_forall₂_append later
      obtain ⟨run, rest, last, nothing, rfl⟩ := List.forall₂_cons_left_iff.1 outer
      cases nothing
      rw [partsOf_cons, partsOf_append, partsOf_cons, parts_of_readAs_fence unmasked first,
        parts_of_readAs_fence unmasked last, Directive.ofInfo_openTag, Directive.ofInfo_closeTag]
      exact (balanced_writtenOfAll unmasked children writable inner).enclose _ _ _ _

/-- What is read for nodes is balanced. -/
theorem balanced_writtenOfAll (unmasked : body.mask.spans = []) :
    (nodes : List Node) → Node.WritableAll nodes →
    ∀ {runs : List (List Markdown.Placed)},
      List.Forall₂ Written.ReadAs (Node.writtenOfAll nodes) runs →
      Part.Balanced (body.partsOf runs)
  | [], _, runs, read => by
      rw [Node.writtenOfAll] at read
      cases read
      exact .nil
  | node :: more, writable, runs, read => by
      rw [Node.WritableAll] at writable
      rw [Node.writtenOfAll] at read
      obtain ⟨here, there, rfl, first, later⟩ := exists_of_forall₂_append read
      rw [partsOf_append]
      exact (balanced_written unmasked node writable.1 first).append
        (balanced_writtenOfAll unmasked more writable.2 later)

end

/-- The mark of a block has the outline of what was written. -/
theorem map_outline_marksOfGroup (unmasked : body.mask.spans = []) {block : Written}
    {run : List Markdown.Placed} (read : block.ReadAs run) :
    (body.marksOfGroup (block.group run)).map Mark.outline = [block.outline] := by
  cases read with
  | markdown left apart markdown =>
      rw [Written.group, marksOfGroup_run body left markdown]
      rfl
  | fence info source first last =>
      rw [Written.group, Written.outline]
      cases Directive.ofInfo info with
      | leaf kind => rfl
      | opening kind =>
          rw [marksOfGroup, List.map_singleton, Mark.outline, Frame.bare,
            Frame.container_ofPayload]
      | closing kind => rfl
      | code code =>
          rw [marksOfGroup, List.map_singleton, Mark.outline, Mask.restore_of_unmasked unmasked]

theorem map_outline_marksOfGroups (unmasked : body.mask.spans = []) {written : List Written}
    {runs : List (List Markdown.Placed)} (read : List.Forall₂ Written.ReadAs written runs) :
    ((List.zipWith Written.group written runs).flatMap body.marksOfGroup).map Mark.outline =
      written.map Written.outline := by
  induction read with
  | nil => rfl
  | cons here later ih =>
      rw [List.zipWith_cons_cons, List.flatMap_cons, List.map_append, ih, List.map_cons,
        map_outline_marksOfGroup unmasked here, List.singleton_append]

/-- If no two blocks of Markdown are neighbours, every block is a group of its own. -/
theorem groups_partsOf (unmasked : body.mask.spans = []) {written : List Written}
    {runs : List (List Markdown.Placed)} (read : List.Forall₂ Written.ReadAs written runs)
    (apart : (written.map Written.outline).IsChain Mark.Apart) :
    Part.groups (body.partsOf runs) = List.zipWith Written.group written runs := by
  induction read with
  | nil => rfl
  | @cons block run written runs here later ih =>
      rw [List.map_cons, List.isChain_cons] at apart
      have rest := ih apart.2
      rw [partsOf_cons, List.zipWith_cons_cons, ← rest]
      cases here with
      | fence info source first last =>
          rw [List.map_singleton, partOf_fence unmasked, List.singleton_append, Part.groups,
            Written.group]
      | markdown left fences markdown =>
          have nonempty : run ≠ [] := List.ne_nil_of_mem left.choose_spec.1
          rw [map_partOf_of_apart body fences, Part.groups_append_of_fence nonempty,
            Written.group]
          -- what is read next is a fence, or there would be two blocks of Markdown
          intro next isNext
          cases later with
          | nil => cases isNext
          | cons there _ =>
              cases there with
              | fence info source first last =>
                  rw [partsOf_cons, List.map_singleton, partOf_fence unmasked] at isNext
                  cases isNext
                  exact ⟨_, _, rfl⟩
              | markdown _ _ _ => exact absurd ⟨rfl, rfl⟩ (apart.1 _ rfl)

/-- The marks of what is read for nodes are those of the blocks, one by one. -/
theorem marksOf_of_readAs (unmasked : body.mask.spans = []) {nodes : List Node}
    (spaced : Node.SpacedAll nodes) (writable : Node.WritableAll nodes)
    {runs : List (List Markdown.Placed)}
    (read : List.Forall₂ Written.ReadAs (Node.writtenOfAll nodes) runs) :
    body.marksOf runs.flatten =
      (List.zipWith Written.group (Node.writtenOfAll nodes) runs).flatMap body.marksOfGroup := by
  have outlines := Node.map_outline_writtenOfAll nodes writable
  have apart : ((Node.writtenOfAll nodes).map Written.outline).IsChain Mark.Apart := by
    rw [outlines, List.isChain_map]
    refine (Node.marksOfAll_of_spacedAll nodes spaced).imp fun a b apart both => apart ?_
    cases a <;> cases b <;> exact both
  obtain ⟨kept, depth⟩ := balanced_writtenOfAll unmasked nodes writable read 0
  rw [partsOf] at kept depth
  rw [marksOf, kept, depth, List.replicate_zero, List.append_nil, ← partsOf,
    groups_partsOf unmasked read apart]

end Body

/-- Nothing that is read has raw Html. -/
theorem Written.rawPieces_of_readAs {written : List Written} {runs : List (List Markdown.Placed)}
    (read : List.Forall₂ ReadAs written runs) :
    ∀ placed ∈ runs.flatten, placed.block.rawPieces = [] := by
  induction read with
  | nil => exact List.forall_mem_nil _
  | cons here later ih =>
      rw [List.flatten_cons, List.forall_mem_append]
      refine ⟨?_, ih⟩
      cases here with
      | markdown _ _ markdown => exact markdown
      | fence info body first last => rw [List.forall_mem_singleton, Markdown.Block.rawPieces]

/--
Nodes come back from the blocks that are written for them, up to what runs of
Markdown and payloads are read as: with the same nesting, order and kinds, and
the same code samples.  And the info of a code sample is never read as anything
but the code sample.
-/
theorem Node.rebuild_written {body : Body} (unmasked : body.mask.spans = []) {nodes : List Node}
    (spaced : SpacedAll nodes) (writable : WritableAll nodes)
    {runs : List (List Markdown.Placed)}
    (read : List.Forall₂ Written.ReadAs (writtenOfAll nodes) runs) :
    (writtenOfAll nodes).map Written.text = blocksOfAll nodes ∧
      (∃ tree, body.treeOf runs.flatten = .ok tree ∧ outlineOfAll tree = outlineOfAll nodes) ∧
      ∀ info code, Directive.ofInfo info = .code code → Directive.ofInfo code.toInfo = .code code := by
  refine ⟨map_text_writtenOfAll nodes, ?_, fun _ _ => Directive.ofInfo_toInfo⟩
  obtain ⟨tree, built⟩ := Body.exists_treeOf_iff.2 (Written.rawPieces_of_readAs read)
  refine ⟨tree, built, (outlineOfAll_eq_iff_marks _ _).2 ?_⟩
  rw [Body.marksOfAll_treeOf built, Body.marksOf_of_readAs unmasked spaced writable read,
    Body.map_outline_marksOfGroups unmasked read, map_outline_writtenOfAll nodes writable]

/-- A row with a passage and a code sample, and a button after it. -/
theorem Node.rebuild_written_hstack :
    let body : Body := ⟨[], ⟨"HNTPL".toList, []⟩, []⟩
    let nodes : List Node :=
      [.container "a" (.hstack []) [.passage "b" ⟨[], "hi", [], "hi"⟩,
        .code "c" ⟨"Rust", some "no_run"⟩ "x\n"], .leaf "d" .button []]
    let runs : List (List Markdown.Placed) :=
      [[⟨.code true "hstack.start".toList [], 1, 2⟩], [⟨.paragraph [.text "hi".toList], 4, 4⟩],
        [⟨.code true "Rust no_run".toList "x\n".toList, 6, 8⟩],
        [⟨.code true "hstack.end".toList [], 10, 11⟩], [⟨.code true "button".toList [], 13, 14⟩]]
    SpacedAll nodes ∧ WritableAll nodes ∧
      List.Forall₂ Written.ReadAs (writtenOfAll nodes) runs ∧
      ∃ tree, body.treeOf runs.flatten = .ok tree ∧ outlineOfAll tree = outlineOfAll nodes := by
  intro body nodes runs
  have spaced : SpacedAll nodes := by simp [nodes, SpacedAll, Spaced, isPassage]
  have writable : WritableAll nodes := by
    simp only [nodes, WritableAll, Writable]
    refine ⟨⟨by decide, ⟨⟨"Rust  no_run ".toList, by decide +kernel⟩, ?_⟩, trivial⟩, trivial, trivial⟩
    rintro last ⟨⟩
    rfl
  have read : List.Forall₂ Written.ReadAs (writtenOfAll nodes) runs := by
    refine .cons (.fence _ _ _ _) (.cons (.markdown ⟨_, List.mem_cons_self, rfl⟩ ?_ ?_)
      (.cons (.fence _ _ _ _) (.cons (.fence _ _ _ _) (.cons (.fence _ _ _ _) .nil))))
    · rintro placed mem info literal isFence
      rw [List.mem_singleton.1 mem] at isFence
      cases isFence
    · decide
  exact ⟨spaced, writable, read, (rebuild_written rfl spaced writable read).2.1⟩

end UiMarkdown
