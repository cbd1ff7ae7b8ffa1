import UiMarkdown.Proofs.Markdown.Position
import UiMarkdown.Proofs.Mask.Restored
import UiMarkdown.Proofs.Source.RoundTrip
import UiMarkdown.Proofs.Text.Words

/-!
# Sources of passages

The source of a passage is an excerpt from the lines of the body: from the first
line of its first block to the last line of its last one.  Blocks share no lines,
so these hold what its own blocks are written in and nothing of another node,
provided that the parser and the excerpt count lines alike.  They do where every
carriage return has its line feed.
-/

namespace UiMarkdown

namespace Mask

/-- Every line of a text that is trimmed and restored stands in it, trimmed and restored. -/
theorem Fresh.infix_restore_of_mem {mask : Mask} (fresh : mask.Fresh)
    {lines : List (List Char)} {line : List Char} (mem : line ∈ lines)
    (nonblank : Text.allBlank line = false) :
    mask.restore (Text.trimEnd line) <:+:
      mask.restore (Text.trimEnd (['\n'].intercalate lines)) := by
  obtain ⟨before, after, rfl⟩ := List.append_of_mem mem
  rw [Text.intercalate_append_cons]
  have kept : Text.trimEnd (line ++ after.flatMap ('\n' :: ·)) ≠ [] := by
    intro gone
    have blank := Text.allBlank_of_trimEnd_eq_nil gone
    rw [Text.allBlank, List.all_append, Bool.and_eq_true] at blank
    rw [Text.allBlank, blank.1] at nonblank
    cases nonblank
  have feed : ∀ c ∈ (after.flatMap ('\n' :: ·)).head?, Text.isBlank c = true := by
    cases after with
    | nil => rintro c ⟨⟩
    | cons next after =>
        rintro c ⟨⟩
        decide
  obtain ⟨rest, split, gap⟩ := Text.exists_trimEnd_append line feed
  rw [Text.trimEnd_append kept, split]
  refine fresh.infix_restore _ ?_ fun c first => Text.isAlphanum_of_isBlank (gap c first)
  intro c last
  rcases List.eq_nil_or_concat' before with rfl | ⟨before, line, rfl⟩
  · cases last
  · rw [List.flatMap_append, List.flatMap_singleton, ← List.append_assoc,
      List.getLast?_concat] at last
    cases last
    decide

end Mask

/-! ## The excerpt of a run -/

namespace Body

/-- The lines from one to another, counted from one, without white space at the end. -/
def excerpt (body : Body) (first last : Nat) : List Char :=
  body.mask.restore (Text.trimEnd
    (['\n'].intercalate ((body.lines.drop (first - 1)).take (last + 1 - first))))

/-- The source of a run is the excerpt from its first to its last line. -/
theorem sourceOf_eq_excerpt {body : Body} {run : List Markdown.Placed} {first last : Markdown.Placed}
    (order : Markdown.InOrder body.lines.length run) (head : run.head? = some first)
    (isLast : run.getLast? = some last) :
    body.sourceOf run = body.excerpt first.first last.last := by
  have begins := order.placed first (List.mem_of_head? head)
  have ends := order.placed last (List.mem_of_getLast? isLast)
  have forward : first.first ≤ last.last :=
    Nat.le_trans begins.2.1 (order.le_last isLast (List.mem_of_head? head))
  rw [sourceOf, excerpt, head, isLast]
  dsimp only
  rw [Nat.max_eq_left begins.1, Nat.max_eq_left forward, Nat.min_eq_left ends.2.2]

/-- Every line of every block of a run is blank or stands in the source of the run. -/
theorem exists_line_of_mem_run {body : Body} {run : List Markdown.Placed}
    (order : Markdown.InOrder body.lines.length run) (fresh : body.mask.Fresh)
    {placed : Markdown.Placed} (mem : placed ∈ run) {k : Nat} (begun : placed.first ≤ k)
    (ended : k ≤ placed.last) :
    ∃ line, body.lines[k - 1]? = some line ∧ (Text.allBlank line = true ∨
      body.mask.restore (Text.trimEnd line) <:+: body.sourceOf run) := by
  obtain ⟨first, head⟩ : ∃ first, run.head? = some first :=
    Option.isSome_iff_exists.1 (List.isSome_head?.2 (List.ne_nil_of_mem mem))
  obtain ⟨last, isLast⟩ : ∃ last, run.getLast? = some last :=
    Option.isSome_iff_exists.1 (List.getLast?_isSome.2 (List.ne_nil_of_mem mem))
  have starts := (order.placed first (List.mem_of_head? head)).1
  have from_first := order.first_le head mem
  have to_last := order.le_last isLast mem
  have within := (order.placed placed mem).2.2
  obtain ⟨line, isLine⟩ : ∃ line, body.lines[k - 1]? = some line :=
    ⟨_, List.getElem?_eq_getElem (by omega)⟩
  refine ⟨line, isLine, ?_⟩
  cases blank : Text.allBlank line with
  | true => exact .inl rfl
  | false =>
      right
      rw [sourceOf_eq_excerpt order head isLast]
      refine fresh.infix_restore_of_mem (List.mem_of_getElem? (i := k - first.first) ?_) blank
      rw [List.getElem?_take, if_pos (by omega), List.getElem?_drop, ← isLine]
      congr 1
      omega

/-- A block is a closing fence that finds no open container where it stands. -/
def Drops (body : Body) (blocks : List Markdown.Placed) (placed : Markdown.Placed) : Prop :=
  ∃ before after, blocks = before ++ placed :: after ∧
    (body.partOf placed).isStray ((before.map body.partOf).foldl Part.depthAfter 0) = true

/-- The blocks of a run are among the blocks that its parts are of, in their order. -/
theorem sublist_of_withoutStray {body : Body} {depth : Nat} {blocks run : List Markdown.Placed}
    (kept : Part.withoutStray depth (blocks.map body.partOf) = run.map .plain) :
    run.Sublist blocks := by
  obtain ⟨picked, sub, same⟩ :=
    List.sublist_map_iff.1 (kept ▸ Part.withoutStray_sublist depth (blocks.map body.partOf))
  have equal : ∀ run picked : List Markdown.Placed,
      run.map Part.plain = picked.map body.partOf → run = picked := by
    intro run
    induction run with
    | nil => exact fun picked same => (List.map_eq_nil_iff.1 same.symm).symm
    | cons block run ih =>
        intro picked same
        obtain ⟨other, more, rfl, here, later⟩ := List.map_eq_cons_iff.1 same.symm
        rw [eq_of_partOf_eq_plain here, ih more later.symm]
  exact equal run picked same ▸ sub

/-- A block that no run takes and no other group holds is dropped. -/
theorem mem_or_drops {body : Body} {earlier among later run : List Markdown.Placed}
    (kept : Part.withoutStray ((earlier.map body.partOf).foldl Part.depthAfter 0)
      (among.map body.partOf) = run.map .plain) {placed : Markdown.Placed} (mem : placed ∈ among) :
    placed ∈ run ∨ body.Drops (earlier ++ (among ++ later)) placed := by
  obtain ⟨before, after, rfl⟩ := List.append_of_mem mem
  have stands := Part.mem_withoutStray ((earlier.map body.partOf).foldl Part.depthAfter 0)
    (before.map body.partOf) (body.partOf placed) (after.map body.partOf)
  rcases stands with stands | stray
  · left
    rw [List.map_append, List.map_cons] at kept
    rw [kept] at stands
    obtain ⟨block, isBlock, same⟩ := List.mem_map.1 stands
    rwa [eq_of_partOf_eq_plain same.symm]
  · right
    refine ⟨earlier ++ before, after ++ later, by simp, ?_⟩
    rw [List.map_append, List.foldl_append]
    exact stray

/--
A source has the lines of the blocks of a run: every line of them that is not
blank stands in it, and it is the excerpt from the first line of the first block
to the last line of the last one, where no other block has a line, apart from
closing fences that belong to no node.
-/
structure OwnLines (body : Body) (blocks run : List Markdown.Placed) (source : List Char) :
    Prop where
  own : ∀ placed ∈ run, ∀ k, placed.first ≤ k → k ≤ placed.last →
    ∃ line, body.lines[k - 1]? = some line ∧ (Text.allBlank line = true ∨
      body.mask.restore (Text.trimEnd line) <:+: source)
  others : ∃ first last, run.head? = some first ∧ run.getLast? = some last ∧
    source = body.excerpt first.first last.last ∧
    ∀ other ∈ blocks, other ∈ run ∨ body.Drops blocks other ∨
      other.last < first.first ∨ last.last < other.first

/-- The source of a longest run among the blocks of a body has its own lines. -/
theorem ownLines_sourceOf {body : Body} {blocks run : List Markdown.Placed}
    {groups more : List Part.Group} (fresh : body.mask.Fresh)
    (order : Markdown.InOrder body.lines.length blocks)
    (runs : Part.LongestRuns (groups ++ .run run :: more)
      (Part.withoutStray 0 (blocks.map body.partOf))) :
    body.OwnLines blocks run (body.sourceOf run) := by
  have joined := runs.joined
  rw [List.flatMap_append, List.flatMap_cons, Part.Group.parts] at joined
  obtain ⟨first, rest, split, -, kept⟩ := Part.exists_append_of_withoutStray joined.symm
  obtain ⟨earlier, rest', rfl, rfl, rfl⟩ := List.map_eq_append_iff.1 split
  obtain ⟨middle, last, split, kept, -⟩ := Part.exists_append_of_withoutStray kept
  obtain ⟨among, later, rfl, rfl, rfl⟩ := List.map_eq_append_iff.1 split
  have sub : run.Sublist among := sublist_of_withoutStray kept
  have runOrder : Markdown.InOrder body.lines.length run :=
    order.sublist (sub.trans
      ((List.sublist_append_left among later).trans (List.sublist_append_right earlier _)))
  refine ⟨fun placed mem k => exists_line_of_mem_run runOrder fresh mem, ?_⟩
  have nonempty : run ≠ [] := by
    rintro rfl
    exact runs.nonempty (List.mem_append_right _ List.mem_cons_self)
  obtain ⟨first, head⟩ := Option.isSome_iff_exists.1 (List.isSome_head?.2 nonempty)
  obtain ⟨last, isLast⟩ := Option.isSome_iff_exists.1 (List.getLast?_isSome.2 nonempty)
  refine ⟨first, last, head, isLast, sourceOf_eq_excerpt runOrder head isLast,
    fun other mem => ?_⟩
  have apart := List.pairwise_append.1 order.apart
  rcases List.mem_append.1 mem with before | mem
  · refine .inr (.inr (.inl (apart.2.2 other before first ?_)))
    exact List.mem_append_left _ (sub.subset (List.mem_of_head? head))
  · rcases List.mem_append.1 mem with inside | after
    · exact (mem_or_drops kept inside).imp_right .inl
    · refine .inr (.inr (.inr ?_))
      exact (List.pairwise_append.1 apart.2.1).2.2 last
        (sub.subset (List.mem_of_getLast? isLast)) other after

end Body

/-! ## Passages of a tree -/

namespace Body

/-- The body that a text is read as, with the lines that the parser counts. -/
def parsed (text document : List Char) : Body :=
  { ofText text document with lines := Markdown.cutLines (Fence.separate (Mask.ofText text).1) }

end Body

/--
Every passage of a tree is a longest run of blocks whose source has its own lines
as the parser counts them, if every carriage return of the masked text has its
line feed.
-/
theorem Node.ownLines_of_passage {options : CompileOptions} {text document : List Char}
    {tree : List Node} (paired : Text.isPaired (Mask.ofText text).1 = true)
    (built : Node.ofText options text document = .ok tree) {before after : List Mark}
    {p : Passage} (walk : Node.marksOfAll tree = before ++ .passage p :: after) :
    let body := Body.ofText text document
    let blocks := Body.blocksOf options text
    ∃ groups run more,
      Part.LongestRuns (groups ++ .run run :: more)
        (Part.withoutStray 0 (blocks.map body.partOf)) ∧
      before = groups.flatMap body.marksOfGroup ∧ p = body.passageOf run ∧
      (Body.parsed text document).OwnLines blocks run p.source.toList := by
  intro body blocks
  rw [Node.ofText_eq_treeOf] at built
  obtain ⟨groups, run, more, runs, front, rfl⟩ := Body.exists_run_of_treeOf built walk
  refine ⟨groups, run, more, runs, front, rfl, ?_⟩
  have lines : Markdown.cutLines (Fence.separate (Mask.ofText text).1) =
      Text.lines (Fence.separate (Mask.ofText text).1) :=
    Markdown.cutLines_of_isPaired (Fence.isPaired_separate paired)
  have same : Body.parsed text document = body := congrArg (Body.mk · _ _) lines
  have order := (Markdown.inOrder_parse options.extensions _).mono
    (Markdown.length_textLines_le (Fence.separate (Mask.ofText text).1))
  rw [lines] at order
  rw [same, Body.passageOf, String.toList_ofList]
  exact Body.ownLines_sourceOf (Mask.fresh_ofText text) order runs

theorem Node.ownLines_of_passage_after_button :
    let text := "a\r\n\r\n```button\r\n```\r\nb\r\n\r\nc".toList
    let a : Passage := ⟨[.paragraph [.text "a"]], "a", [], "a"⟩
    let bc : Passage :=
      ⟨[.paragraph [.text "b"], .paragraph [.text "c"]], "b\n\nc", [], "b\n\nc"⟩
    let tree : List Node := [.passage "n1" a, .leaf "n2" .button [], .passage "n3" bc]
    let before : List Mark := [.passage a, .leaf .button []]
    let body := Body.ofText text text
    let blocks := Body.blocksOf {} text
    Text.isPaired (Mask.ofText text).1 = true ∧ Node.ofText {} text text = .ok tree ∧
      Node.marksOfAll tree = before ++ .passage bc :: [] ∧
      ∃ groups run more,
        Part.LongestRuns (groups ++ .run run :: more)
          (Part.withoutStray 0 (blocks.map body.partOf)) ∧
        before = groups.flatMap body.marksOfGroup ∧ bc = body.passageOf run ∧
        (Body.parsed text text).OwnLines blocks run bc.source.toList := by
  intro text a bc tree before body blocks
  have paired : Text.isPaired (Mask.ofText text).1 = true := by decide +kernel
  have built : Node.ofText {} text text = .ok tree := by decide +kernel
  have walk : Node.marksOfAll tree = before ++ .passage bc :: [] := by decide +kernel
  exact ⟨paired, built, walk, Node.ownLines_of_passage paired built walk⟩

/-- A carriage return without its line feed moves the excerpts behind it away from their blocks. -/
theorem Node.not_ownLines_after_return :
    let text := "a\rb\n\n```button\n```\n\nc\n".toList
    let c : Passage := ⟨[.paragraph [.text "c"]], "c", [], ""⟩
    let body := Body.ofText text text
    let blocks := Body.blocksOf {} text
    ∃ tree before groups run more,
      Node.ofText {} text text = .ok tree ∧ Node.marksOfAll tree = before ++ [.passage c] ∧
      Part.LongestRuns (groups ++ .run run :: more)
        (Part.withoutStray 0 (blocks.map body.partOf)) ∧
      before = groups.flatMap body.marksOfGroup ∧ c = body.passageOf run ∧
      ¬ (Body.parsed text text).OwnLines blocks run c.source.toList := by
  intro text c body blocks
  let ab : Passage := ⟨[.paragraph [.text "a\nb"]], "a\nb", [], "a\rb"⟩
  have built : Node.ofText {} text text =
      .ok [.passage "n1" ab, .leaf "n2" .button [], .passage "n3" c] := by decide +kernel
  have walk : Node.marksOfAll [.passage "n1" ab, .leaf "n2" .button [], .passage "n3" c] =
      [.passage ab, .leaf .button []] ++ [.passage c] := by decide +kernel
  have grown : body.treeOf blocks = .ok _ := built
  obtain ⟨groups, run, more, runs, front, same⟩ := Body.exists_run_of_treeOf grown walk
  refine ⟨_, _, groups, run, more, built, walk, runs, front, same, fun ownLines => ?_⟩
  -- every block begins with a line that is not blank, so no block has its lines in no text
  have written : (blocks.all fun block => block.first ≤ block.last &&
      ((Body.parsed text text).lines[block.first - 1]?).any fun line =>
        !Text.allBlank line && !(body.mask.restore (Text.trimEnd line)).isEmpty) = true := by
    decide +kernel
  obtain ⟨placed, mem⟩ := List.exists_mem_of_ne_nil run fun none =>
    runs.nonempty (none ▸ List.mem_append_right _ List.mem_cons_self)
  have begins := List.all_eq_true.1 written placed
    (Body.mem_of_mem_run runs (List.mem_append_right _ List.mem_cons_self) mem)
  rw [Bool.and_eq_true, decide_eq_true_iff, Option.any_eq_true] at begins
  obtain ⟨forward, line, isLine, holds⟩ := begins
  rw [Bool.and_eq_true, Bool.not_eq_true', Bool.not_eq_true'] at holds
  obtain ⟨line', isLine', own⟩ := ownLines.own placed mem placed.first (Nat.le_refl _) forward
  rw [isLine] at isLine'
  cases isLine'
  rcases own with blank | inside
  · rw [holds.1] at blank
    cases blank
  · have gone : body.mask.restore (Text.trimEnd line) = [] := List.infix_nil.1 inside
    rw [gone] at holds
    cases holds.2

end UiMarkdown
