import UiMarkdown.Proofs.Compile.Walk

/-!
# Fragments of blocks

On the level of blocks nothing is merged, repaired or dropped: the fragment of a
run has the nodes that its blocks leave, so a run with a block that leaves one is
a passage.
-/

namespace UiMarkdown

namespace Fragment

def AllBlocks (nodes : List Fragment) : Prop :=
  ∀ node ∈ nodes, node.isBlock = true

theorem mergeText_of_allBlocks {nodes : List Fragment} (blocks : AllBlocks nodes) :
    mergeText nodes = nodes := by
  induction nodes with
  | nil => rfl
  | cons node more ih =>
      obtain ⟨here, later⟩ := List.forall_mem_cons.1 blocks
      cases node with
      | text value => cases here
      | _ => rw [mergeText, ih later]; simp

theorem restoreAll_eq_map (mask : Mask) (nodes : List Fragment) :
    restoreAll mask nodes = nodes.map (restore mask) := by
  induction nodes with
  | nil => rw [restoreAll, List.map_nil]
  | cons node more ih => rw [restoreAll, List.map_cons, ih]

theorem normalizeEach_eq_map (nodes : List Fragment) :
    normalizeEach nodes = nodes.map normalizeNode := by
  induction nodes with
  | nil => rw [normalizeEach, List.map_nil]
  | cons node more ih => rw [normalizeEach, List.map_cons, ih]

theorem isBlock_restore (mask : Mask) (node : Fragment) :
    (restore mask node).isBlock = node.isBlock := by
  cases node <;> rw [restore] <;> rfl

theorem isBlock_normalizeNode (node : Fragment) :
    (normalizeNode node).isBlock = node.isBlock := by
  cases node <;> rw [normalizeNode] <;> rfl

theorem mergeImages_of_allBlocks {nodes : List Fragment} (blocks : AllBlocks nodes) :
    mergeImages nodes = nodes := by
  induction nodes with
  | nil => rfl
  | cons node more ih =>
      obtain ⟨here, later⟩ := List.forall_mem_cons.1 blocks
      rw [mergeImages] at ih ⊢
      rw [List.flatMap_cons, ih later]
      cases node with
      | text value => cases here
      | _ => rfl

theorem settle_nil : settle [] = [] := by
  decide +kernel

theorem settleRuns_of_allBlocks {nodes : List Fragment} (blocks : AllBlocks nodes) :
    settleRuns [] nodes = nodes := by
  induction nodes with
  | nil => exact settle_nil
  | cons node more ih =>
      obtain ⟨here, later⟩ := List.forall_mem_cons.1 blocks
      have apart : node.isMergeable = false := by
        cases node <;> first | rfl | cases here
      rw [settleRuns, apart, if_neg Bool.false_ne_true, settle_nil, ih later, List.nil_append]

/-- Blocks are repaired inside only. -/
theorem normalize_of_allBlocks {nodes : List Fragment} (blocks : AllBlocks nodes) :
    normalize nodes = nodes.map normalizeNode := by
  have still : AllBlocks (nodes.map normalizeNode) := by
    intro node mem
    obtain ⟨node', mem', rfl⟩ := List.mem_map.1 mem
    rw [isBlock_normalizeNode]
    exact blocks node' mem'
  rw [normalize, repair, normalizeEach_eq_map, mergeImages_of_allBlocks still,
    settleRuns_of_allBlocks still]

end Fragment

namespace Markdown

namespace Block

mutual

/-- Whether a block leaves a node: a group does if something in it does. -/
def leaves : Block → Bool
  | .frontmatter _ => false
  | .group children => leavesAny children
  | _ => true

def leavesAny : List Block → Bool
  | [] => false
  | block :: more => leaves block || leavesAny more

end

theorem leavesAny_eq_true_iff {blocks : List Block} :
    leavesAny blocks = true ↔ ∃ block ∈ blocks, block.leaves = true := by
  induction blocks with
  | nil => simp [leavesAny]
  | cons block more ih => rw [leavesAny, Bool.or_eq_true, ih, List.exists_mem_cons_iff]

/-- Nodes that are all blocks, and at least one if something is left. -/
structure Leaves (some : Bool) (nodes : List Fragment) : Prop where
  blocks : Fragment.AllBlocks nodes
  nonempty : some = true → nodes ≠ []

namespace Leaves

theorem singleton {some : Bool} {node : Fragment} (block : node.isBlock = true) :
    Leaves some [node] :=
  ⟨List.forall_mem_singleton.2 block, fun _ => List.cons_ne_nil _ _⟩

theorem nil : Leaves false [] :=
  ⟨List.forall_mem_nil _, fun absent => by cases absent⟩

theorem append {some more : Bool} {nodes later : List Fragment} (first : Leaves some nodes)
    (second : Leaves more later) : Leaves (some || more) (nodes ++ later) where
  blocks := List.forall_mem_append.2 ⟨first.blocks, second.blocks⟩
  nonempty left none := by
    obtain ⟨none, none'⟩ := List.append_eq_nil_iff.1 none
    rcases (Bool.or_eq_true _ _).mp left with left | left
    · exact first.nonempty left none
    · exact second.nonempty left none'

end Leaves

mutual

theorem leaves_toFragment : (block : Block) → Yields (Leaves block.leaves) block.toFragment
  | .paragraph content | .heading _ content => by
      rw [toFragment]
      exact Yields.map_of_forall fun _ => .singleton rfl
  | .quote children | .list _ _ children | .item _ children => by
      rw [toFragment]
      exact Yields.map_of_forall fun _ => .singleton rfl
  | .table rows => by
      rw [toFragment]
      exact Yields.map_of_forall fun _ => .singleton rfl
  | .code _ _ _ | .rule => by
      rw [toFragment]
      exact .ok (.singleton rfl)
  | .html source => by
      rw [toFragment]
      exact .error source
  | .frontmatter _ => by
      rw [toFragment, leaves]
      exact .ok .nil
  | .group children => by
      rw [toFragment, leaves]
      exact leaves_toFragments children

theorem leaves_toFragments :
    (blocks : List Block) → Yields (Leaves (leavesAny blocks)) (toFragments blocks)
  | [] => by
      rw [toFragments, leavesAny]
      exact .ok .nil
  | block :: more => by
      rw [toFragments, leavesAny]
      apply (leaves_toFragment block).bind
      intro nodes first
      apply (leaves_toFragments more).bind
      intro later second
      exact .ok (first.append second)

end

end Block

end Markdown

namespace Body

/-- Blocks of which one leaves a node have a fragment that is not empty. -/
theorem fragmentOf_ne_nil {run : List Markdown.Placed} (body : Body)
    (left : ∃ placed ∈ run, placed.block.leaves = true)
    (markdown : ∀ placed ∈ run, placed.block.rawPieces = []) : body.fragmentOf run ≠ [] := by
  have converted := Markdown.Block.raises_toFragments (run.map (·.block))
  rw [(Markdown.Block.rawPiecesOfAll_eq_nil_iff _).2 (by simpa using markdown)] at converted
  obtain ⟨nodes, converted⟩ := converted
  have leaves := (Markdown.Block.leaves_toFragments (run.map (·.block))).holds nodes converted
  have restored : Fragment.AllBlocks (nodes.map (Fragment.restore body.mask)) := by
    intro node mem
    obtain ⟨node', mem', rfl⟩ := List.mem_map.1 mem
    rw [Fragment.isBlock_restore]
    exact leaves.blocks node' mem'
  rw [fragmentOf, converted]
  dsimp only
  rw [Fragment.mergeText_of_allBlocks leaves.blocks, Fragment.restoreAll_eq_map,
    Fragment.normalize_of_allBlocks restored, ne_eq, List.map_eq_nil_iff, List.map_eq_nil_iff]
  exact leaves.nonempty (Markdown.Block.leavesAny_eq_true_iff.2 (by simpa using left))

/-- A run that leaves a node is one passage. -/
theorem marksOfGroup_run {run : List Markdown.Placed} (body : Body)
    (left : ∃ placed ∈ run, placed.block.leaves = true)
    (markdown : ∀ placed ∈ run, placed.block.rawPieces = []) :
    body.marksOfGroup (.run run) = [.passage (body.passageOf run)] := by
  have some : (body.fragmentOf run).isEmpty = false := by
    rw [Bool.eq_false_iff, ne_eq, List.isEmpty_iff]
    exact body.fragmentOf_ne_nil left markdown
  rw [marksOfGroup, some, Bool.false_and, if_neg Bool.false_ne_true]

end Body

end UiMarkdown
