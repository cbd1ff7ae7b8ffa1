import UiMarkdown.Document.References
import UiMarkdown.Proofs.Document.Imageless
import UiMarkdown.Proofs.Document.Strings

/-!
# The plain text of a repaired fragment

Flattening a run keeps its text, and where blocks and inlines do not mix, the text of a
level depends on the runs only through their joined text: inlines are put together as
they stand, and blocks are never flattened.  So the repairs keep the plain text of a
fragment in which no image is made of a text, and with it the references found there.
-/

namespace UiMarkdown

namespace Fragment

def AllInlines (nodes : List Fragment) : Prop :=
  ∀ node ∈ nodes, node.isBlock = false

def isCell : Fragment → Bool
  | .tableCell _ => true
  | _ => false

/-- A fragment with only blocks or only inlines on each level, and only cells in a row. -/
structure Uniform (nodes : List Fragment) : Prop where
  levels : ∀ siblings, Level nodes siblings → AllBlocks siblings ∨ AllInlines siblings
  rows : ∀ siblings, Level nodes siblings → ∀ cells, .tableRow cells ∈ siblings →
    ∀ cell ∈ cells, cell.isCell = true

namespace Uniform

variable {nodes : List Fragment} {node : Fragment}

theorem inside (uniform : Uniform nodes) (mem : node ∈ nodes) : Uniform node.children where
  levels siblings level := uniform.levels siblings (.inside mem level)
  rows siblings level := uniform.rows siblings (.inside mem level)

theorem allBlocks_of_row (uniform : Uniform nodes) {cells : List Fragment}
    (mem : .tableRow cells ∈ nodes) : AllBlocks cells := by
  intro cell inRow
  have isCell := uniform.rows nodes (.top nodes) cells mem cell inRow
  cases cell <;> first | rfl | cases isCell

end Uniform

/-! ## Inlines -/

theorem plainTexts_append (nodes more : List Fragment) :
    plainTexts (nodes ++ more) = plainTexts nodes ++ plainTexts more := by
  rw [plainTexts_eq_map, plainTexts_eq_map, plainTexts_eq_map, List.map_append]

theorem flatten_of_allInlines {nodes : List Fragment} (inlines : AllInlines nodes) :
    flatten nodes = (plainTexts nodes).flatten := by
  have none : nodes.any isBlock = false :=
    List.any_eq_false.2 fun node mem => by simp [inlines node mem]
  rw [flatten, none, joinTexts, if_neg Bool.false_ne_true]

/-- The joined text of a run stays when the run is settled. -/
theorem flatten_plainTexts_settle (run : List Fragment) :
    (plainTexts (settle run)).flatten = (plainTexts run).flatten := by
  cases cut : isCut run with
  | false => rw [settle_of_not_isCut cut]
  | true =>
      rw [plainTexts_settle_of_isCut cut, ← List.flatMap_def, Template.flatMap_text_pieces]

theorem flatten_plainTexts_settleRuns (begun nodes : List Fragment) :
    (plainTexts (settleRuns begun nodes)).flatten = (plainTexts (begun ++ nodes)).flatten := by
  induction nodes generalizing begun with
  | nil => rw [settleRuns, flatten_plainTexts_settle, List.append_nil]
  | cons node rest ih =>
      rw [settleRuns]
      split
      · rw [ih, List.append_assoc, List.singleton_append]
      · rw [plainTexts_append, plainTexts_append, plainTexts, plainTexts, List.flatten_append,
          List.flatten_append, List.flatten_cons, List.flatten_cons, flatten_plainTexts_settle, ih,
          List.nil_append]

theorem allInlines_settleRuns {nodes : List Fragment} (inlines : AllInlines nodes) :
    AllInlines (settleRuns [] nodes) :=
  forall_mem_settleRuns (fun _ _ _ => rfl) (List.forall_mem_nil _) inlines

/-! ## Levels -/

variable {nodes : List Fragment}

theorem mem_throughout {own : Fragment → List (List Char)} {node : Fragment} {s : List Char}
    (among : node ∈ nodes) (mem : s ∈ own node) : s ∈ throughout own nodes := by
  obtain ⟨front, back, rfl⟩ := List.append_of_mem among
  rw [throughout_append, throughout_cons]
  simp [mem]

theorem mergeImages_normalizeEach
    (imageless : ∀ value ∈ throughout ownValue nodes, hasImage value = false) :
    mergeImages (normalizeEach nodes) = normalizeEach nodes := by
  refine mergeImages_of_imageless ?_
  rw [normalizeEach_eq_map, List.forall_mem_map]
  intro node mem
  cases node with
  | text value =>
      rw [normalizeNode]
      exact imageless _ (mem_throughout mem List.mem_cons_self)
  | _ =>
      rw [normalizeNode]
      trivial

theorem any_isBlock_normalizeEach (nodes : List Fragment) :
    (normalizeEach nodes).any isBlock = nodes.any isBlock := by
  rw [normalizeEach_eq_map, List.any_map]
  exact congrArg nodes.any (funext isBlock_normalizeNode)

/-- The text of a node stays when the text inside it does. -/
theorem plainText_normalizeNode {node : Fragment}
    (text : flatten (normalize node.children) = flatten node.children)
    (cells : ∀ cells, node = .tableRow cells → plainTexts (normalize cells) = plainTexts cells) :
    (normalizeNode node).plainText = node.plainText := by
  cases node with
  | code | thematicBreak | text | inlineCode | lineBreak | image => rw [normalizeNode]
  | tableRow children =>
      rw [normalizeNode, plainText, plainText]
      exact congrArg _ (cells children rfl)
  | _ =>
      rw [normalizeNode, plainText, plainText]
      exact text

/-- The repairs keep the plain text of a level, and of blocks the text of each. -/
theorem texts_normalize (uniform : Uniform nodes)
    (imageless : ∀ value ∈ throughout ownValue nodes, hasImage value = false) :
    flatten (normalize nodes) = flatten nodes ∧
      (AllBlocks nodes → plainTexts (normalize nodes) = plainTexts nodes) := by
  induction nodes using level_induction with
  | level nodes ih =>
      have inside (node : Fragment) (mem : node ∈ nodes) :
          (normalizeNode node).plainText = node.plainText := by
        have inner := ih node mem (uniform.inside mem) fun value among =>
          imageless value ((sublist_throughout mem).subset among)
        refine plainText_normalizeNode inner.1 ?_
        rintro cells rfl
        exact inner.2 (uniform.allBlocks_of_row mem)
      have texts : plainTexts (normalizeEach nodes) = plainTexts nodes := by
        rw [normalizeEach_eq_map, plainTexts_eq_map, plainTexts_eq_map, List.map_map]
        exact List.map_congr_left inside
      have blocks (all : AllBlocks nodes) : normalize nodes = normalizeEach nodes := by
        rw [normalize_of_allBlocks all, normalizeEach_eq_map]
      refine ⟨?_, fun all => by rw [blocks all, texts]⟩
      rcases uniform.levels nodes (.top nodes) with all | inlines
      · rw [blocks all, flatten, flatten, texts, any_isBlock_normalizeEach]
      · have still : AllInlines (normalizeEach nodes) := by
          rw [normalizeEach_eq_map, AllInlines, List.forall_mem_map]
          exact fun node mem => (isBlock_normalizeNode node).trans (inlines node mem)
        rw [normalize, repair, mergeImages_normalizeEach imageless,
          flatten_of_allInlines (allInlines_settleRuns still), flatten_plainTexts_settleRuns,
          List.nil_append, texts, flatten_of_allInlines inlines]

/-- Where blocks and inlines do not mix and no text has an image, the repairs keep the plain
text, and with it the references that are found in it. -/
theorem flatten_normalize (uniform : Uniform nodes)
    (imageless : ∀ value ∈ throughout ownValue nodes, hasImage value = false) :
    flatten (normalize nodes) = flatten nodes ∧
      Template.references (flatten (normalize nodes)) = Template.references (flatten nodes) := by
  have text := (texts_normalize uniform imageless).1
  exact ⟨text, congrArg Template.references text⟩

/-- Expressions are cut by emphasis in a heading and in a cell beside another one. -/
theorem flatten_normalize_cut_in_cell :
    let cut : List Fragment := [.text "\x7b\x7b a", .emphasis [.text "b \x7d\x7d"], .lineBreak]
    let nodes : List Fragment :=
      [.heading 1 cut, .table [.tableRow [.tableCell cut, .tableCell [.text "c"]]]]
    Uniform nodes ∧ (∀ value ∈ throughout ownValue nodes, hasImage value = false) ∧
      normalize nodes ≠ nodes ∧ flatten (normalize nodes) = flatten nodes ∧
      flatten nodes = "\x7b\x7b ab \x7d\x7d\n\n\x7b\x7b ab \x7d\x7d\n | c".toList := by
  intro cut nodes
  have uniform : Uniform nodes := by
    constructor
    · simp [nodes, cut, children, or_imp, forall_and, AllBlocks, AllInlines, isBlock]
    · simp [nodes, cut, children, or_imp, forall_and, isCell]
  have imageless : ∀ value ∈ throughout ownValue nodes, hasImage value = false := by
    decide +kernel
  exact ⟨uniform, imageless, by decide +kernel, (flatten_normalize uniform imageless).1,
    by decide +kernel⟩

end Fragment

end UiMarkdown
