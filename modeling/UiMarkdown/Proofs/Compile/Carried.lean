import UiMarkdown.Proofs.Compile.Storable
import UiMarkdown.Proofs.Document.Carried
import UiMarkdown.Proofs.Document.Flat

/-!
# Converting blocks keeps their text

The text of a block is that of the leaves of its tree, with a line feed for each break,
soft or hard.  The fragment of blocks without raw Html carries just this text, also
where running text collapses to the description of an image; and on no level of it is a
text empty or are two texts side by side.
-/

namespace UiMarkdown

/-! ## The text of blocks -/

namespace Markdown

namespace Inline

mutual

/-- The text in a piece of running text; raw Html is none. -/
def carried : Inline → List Char
  | .text value | .code value => value
  | .softBreak | .hardBreak => ['\n']
  | .html _ => []
  | .emphasis children | .strong children | .strike children | .link _ children
  | .image _ children | .group children => carriedAll children

def carriedAll : List Inline → List Char
  | [] => []
  | inline :: more => carried inline ++ carriedAll more

end

end Inline

namespace Block

mutual

def carried : Block → List Char
  | .paragraph content | .heading _ content => Inline.carriedAll content
  | .quote children | .list _ _ children | .item _ children | .group children =>
      carriedAll children
  | .code _ _ literal => literal
  | .html _ | .rule | .frontmatter _ => []
  | .table rows => rows.flatMap fun cells => cells.flatMap Inline.carriedAll

def carriedAll : List Block → List Char
  | [] => []
  | block :: more => carried block ++ carriedAll more

end

end Block

end Markdown

/-! ## Nodes that carry a text -/

namespace Fragment

/-- Nodes that carry a text, with the texts inside them merged on all levels. -/
structure Carries (s : List Char) (nodes : List Fragment) : Prop where
  text : carried nodes = s
  inside : ∀ node ∈ nodes, ∀ siblings, Level node.children siblings → Merged siblings

/-- Inlines that carry a text, which is their plain text. -/
structure Speaks (s : List Char) (nodes : List Fragment) : Prop extends Carries s nodes where
  inlines : AllInlines nodes
  plain : (plainTexts nodes).flatten = s

/-- Blocks that carry a text. -/
structure Builds (s : List Char) (nodes : List Fragment) : Prop extends Carries s nodes where
  blocks : AllBlocks nodes

variable {s t : List Char} {nodes more : List Fragment} {node : Fragment}

namespace Carries

theorem nil : Carries [] [] :=
  ⟨carried_nil, List.forall_mem_nil _⟩

theorem append (first : Carries s nodes) (second : Carries t more) :
    Carries (s ++ t) (nodes ++ more) where
  text := by rw [carried_append, first.text, second.text]
  inside := List.forall_mem_append.2 ⟨first.inside, second.inside⟩

theorem merged (carries : Carries s nodes) (top : Merged nodes) {siblings : List Fragment}
    (level : Level nodes siblings) : Merged siblings := by
  rcases Level.iff.1 level with rfl | ⟨node, mem, level⟩
  · exact top
  · exact carries.inside node mem siblings level

theorem mergeText (carries : Carries s nodes) : Carries s (mergeText nodes) where
  text := (carried_mergeText nodes).trans carries.text
  inside node mem siblings level := by
    rcases mem_mergeText mem with mem | text
    · exact carries.inside node mem siblings level
    · cases node with
      | text value => exact nil.merged .nil level
      | _ => cases text

/-- A node without text of its own carries what is inside it. -/
theorem enclose (carries : Carries s node.children) (top : Merged node.children)
    (own : ownText node = []) : Carries s [node] where
  text := by
    rw [carried_cons, own, List.flatten_nil, List.nil_append, carries.text, carried_nil,
      List.append_nil]
  inside := List.forall_mem_singleton.2 fun _ level => carries.merged top level

theorem leaf (childless : node.children = []) (own : (ownText node).flatten = s) :
    Carries s [node] where
  text := by rw [carried_cons, own, childless, carried_nil, List.append_nil, List.append_nil]
  inside := List.forall_mem_singleton.2 fun _ level => nil.merged .nil (childless ▸ level)

end Carries

namespace Speaks

theorem nil : Speaks [] [] :=
  ⟨.nil, List.forall_mem_nil _, rfl⟩

theorem append (first : Speaks s nodes) (second : Speaks t more) :
    Speaks (s ++ t) (nodes ++ more) where
  toCarries := first.toCarries.append second.toCarries
  inlines := List.forall_mem_append.2 ⟨first.inlines, second.inlines⟩
  plain := by rw [plainTexts_append, List.flatten_append, first.plain, second.plain]

theorem mergeText (speaks : Speaks s nodes) : Speaks s (mergeText nodes) where
  toCarries := speaks.toCarries.mergeText
  inlines node mem := by
    rcases mem_mergeText mem with mem | text
    · exact speaks.inlines node mem
    · cases node <;> first | rfl | cases text
  plain := by
    rw [plainTexts_eq_map, ← List.flatMap_def, flatMap_mergeText fun value => by rw [plainText],
      List.flatMap_def, ← plainTexts_eq_map, speaks.plain]

theorem flatten_eq (speaks : Speaks s nodes) : flatten nodes = s :=
  (flatten_of_allInlines speaks.inlines).trans speaks.plain

/-- A node that puts marks around inlines speaks as they do. -/
theorem enclose (speaks : Speaks s node.children) (top : Merged node.children)
    (own : ownText node = []) (inline : node.isBlock = false)
    (plain : node.plainText = flatten node.children) : Speaks s [node] where
  toCarries := speaks.toCarries.enclose top own
  inlines := List.forall_mem_singleton.2 inline
  plain := by rw [plainTexts, plainTexts, List.flatten_singleton, plain, speaks.flatten_eq]

theorem leaf (childless : node.children = []) (own : ownText node = [s])
    (inline : node.isBlock = false) (plain : node.plainText = s) : Speaks s [node] where
  toCarries := .leaf childless (by rw [own, List.flatten_singleton])
  inlines := List.forall_mem_singleton.2 inline
  plain := by rw [plainTexts, plainTexts, List.flatten_singleton, plain]

end Speaks

/-- No block is a text. -/
theorem merged_of_allBlocks (blocks : AllBlocks nodes) : Merged nodes := by
  induction nodes with
  | nil => exact .nil
  | cons node more ih =>
      obtain ⟨here, later⟩ := List.forall_mem_cons.1 blocks
      refine (ih later).cons ?_
      cases node <;> first | rfl | cases here

namespace Builds

theorem nil : Builds [] [] :=
  ⟨.nil, List.forall_mem_nil _⟩

theorem append (first : Builds s nodes) (second : Builds t more) :
    Builds (s ++ t) (nodes ++ more) where
  toCarries := first.toCarries.append second.toCarries
  blocks := List.forall_mem_append.2 ⟨first.blocks, second.blocks⟩

theorem top (builds : Builds s nodes) : Merged nodes :=
  merged_of_allBlocks builds.blocks

theorem enclose (carries : Carries s node.children) (top : Merged node.children)
    (own : ownText node = []) (block : node.isBlock = true) : Builds s [node] where
  toCarries := carries.enclose top own
  blocks := List.forall_mem_singleton.2 block

theorem leaf (childless : node.children = []) (own : (ownText node).flatten = s)
    (block : node.isBlock = true) : Builds s [node] where
  toCarries := .leaf childless own
  blocks := List.forall_mem_singleton.2 block

theorem mapM {α : Type} {text : α → List Char} {f : α → Except (List Char) Fragment}
    (each : ∀ item, Yields (fun node => Builds (text item) [node]) (f item)) (items : List α) :
    Yields (Builds (items.flatMap text)) (items.mapM f) := by
  induction items with
  | nil => exact .ok .nil
  | cons item items ih =>
      rw [List.mapM_cons, List.flatMap_cons]
      apply (each item).bind
      intro node first
      apply ih.bind
      intro nodes later
      exact .ok (first.append later)

end Builds

end Fragment

/-! ## Conversion -/

namespace Markdown

open Fragment (Speaks Builds Merged Level)

namespace Inline

mutual

theorem speaks_toFragment :
    (inline : Inline) → Yields (Speaks inline.carried) inline.toFragment
  | .text value | .code value => by
      rw [toFragment, carried]
      exact .ok (.leaf rfl (by simp [Fragment.ownText]) rfl (by simp [Fragment.plainText]))
  | .softBreak | .hardBreak => by
      rw [toFragment, carried]
      exact .ok (.leaf rfl rfl rfl rfl)
  | .html source => by
      rw [toFragment]
      exact .error source
  | .emphasis children | .strong children | .strike children | .link _ children => by
      rw [toFragment, carried]
      exact (speaks_toFragments children).map fun nodes speaks =>
        .enclose speaks.mergeText (Fragment.merged_mergeText nodes) rfl rfl rfl
  | .image _ children => by
      rw [toFragment, carried]
      exact (speaks_toFragments children).map fun nodes speaks => by
        rw [speaks.mergeText.flatten_eq]
        exact .leaf rfl (by simp [Fragment.ownText]) rfl (by simp [Fragment.plainText])
  | .group children => by
      rw [toFragment, carried]
      exact speaks_toFragments children

/-- The fragment of running text has the text that the running text carries. -/
theorem speaks_toFragments :
    (inlines : List Inline) → Yields (Speaks (carriedAll inlines)) (toFragments inlines)
  | [] => by
      rw [toFragments, carriedAll]
      exact .ok .nil
  | inline :: more => by
      rw [toFragments, carriedAll]
      apply (speaks_toFragment inline).bind
      intro nodes first
      apply (speaks_toFragments more).bind
      intro others later
      exact .ok (first.append later)

end

theorem speaks_mergedFragments (content : List Inline) :
    Yields (fun nodes => Speaks (carriedAll content) nodes ∧ Merged nodes)
      (mergedFragments content) :=
  (speaks_toFragments content).map fun nodes speaks =>
    ⟨speaks.mergeText, Fragment.merged_mergeText nodes⟩

theorem builds_rowFragment (cells : List (List Inline)) :
    Yields (fun node => Builds (cells.flatMap carriedAll) [node]) (rowFragment cells) := by
  have cell (content : List Inline) : Yields (fun node => Builds (carriedAll content) [node])
      ((mergedFragments content).map Fragment.tableCell) :=
    (speaks_mergedFragments content).map fun _ both => .enclose both.1.toCarries both.2 rfl rfl
  rw [rowFragment]
  apply (Builds.mapM cell cells).bind
  intro nodes builds
  exact .ok (.enclose builds.toCarries builds.top rfl rfl)

end Inline

namespace Block

mutual

theorem builds_toFragment :
    (block : Block) → Yields (Builds block.carried) block.toFragment
  | .paragraph content | .heading _ content => by
      rw [toFragment, carried]
      exact (Inline.speaks_mergedFragments content).map fun nodes both =>
        .enclose both.1.toCarries both.2 rfl rfl
  | .quote children | .list _ _ children | .item _ children => by
      rw [toFragment, carried]
      exact (builds_toFragments children).map fun nodes builds =>
        .enclose builds.toCarries builds.top rfl rfl
  | .code _ _ literal => by
      rw [toFragment, carried]
      exact .ok (.leaf rfl (by simp [Fragment.ownText]) rfl)
  | .rule => by
      rw [toFragment, carried]
      exact .ok (.leaf rfl rfl rfl)
  | .frontmatter _ => by
      rw [toFragment, carried]
      exact .ok .nil
  | .group children => by
      rw [toFragment, carried]
      exact builds_toFragments children
  | .html source => by
      rw [toFragment]
      exact .error source
  | .table rows => by
      rw [toFragment, carried]
      exact (Builds.mapM Inline.builds_rowFragment rows).map fun nodes builds =>
        .enclose builds.toCarries builds.top rfl rfl

/-- The fragment of blocks has the text that the blocks carry. -/
theorem builds_toFragments :
    (blocks : List Block) → Yields (Builds (carriedAll blocks)) (toFragments blocks)
  | [] => by
      rw [toFragments, carriedAll]
      exact .ok .nil
  | block :: more => by
      rw [toFragments, carriedAll]
      apply (builds_toFragment block).bind
      intro nodes first
      apply (builds_toFragments more).bind
      intro others later
      exact .ok (first.append later)

end

/--
Blocks without raw Html have a fragment that carries their text, all of it and in order,
and in which no text is empty and no two texts stand side by side on any level.
-/
theorem fragment_carries_text {blocks : List Block}
    (markdown : ∀ block ∈ blocks, block.rawPieces = []) :
    ∃ nodes, (toFragments blocks).map Fragment.mergeText = .ok nodes ∧
      Fragment.carried nodes = carriedAll blocks ∧
      ∀ siblings, Level nodes siblings → Merged siblings := by
  have converted := raises_toFragments blocks
  rw [(rawPiecesOfAll_eq_nil_iff blocks).2 markdown] at converted
  obtain ⟨nodes, converted⟩ := converted
  have builds := (builds_toFragments blocks).holds nodes converted
  have carries := builds.toCarries.mergeText
  refine ⟨Fragment.mergeText nodes, by rw [converted]; rfl, carries.text, fun siblings level => ?_⟩
  exact carries.merged (Fragment.merged_mergeText nodes) level

/-- Groups around a task with an image whose description has markup, its code, and a row of cells. -/
theorem fragment_carries_text_of_image :
    let image : Inline :=
      .image ⟨['u'], []⟩ [.text ['b'], .strong [.text ['c'], .softBreak], .code ['d']]
    let task : Block := .item (some true)
      [.paragraph [.text [], .group [.text ['a'], .softBreak], .hardBreak, image],
        .code true [] ['e', '\n']]
    let row : List (List Inline) := [[.text ['f']], [.emphasis [.softBreak, .text ['g']]]]
    let blocks : List Block :=
      [.frontmatter ['h'], .group [.list none true [task], .rule], .table [row]]
    (∀ block ∈ blocks, block.rawPieces = []) ∧
      ∃ nodes, (toFragments blocks).map Fragment.mergeText = .ok nodes ∧
        Fragment.carried nodes = "a\n\nbc\nde\nf\ng".toList ∧
        ∀ siblings, Level nodes siblings → Merged siblings := by
  intro image task row blocks
  have markdown : ∀ block ∈ blocks, block.rawPieces = [] := by decide +kernel
  have text : carriedAll blocks = "a\n\nbc\nde\nf\ng".toList := by decide +kernel
  exact ⟨markdown, text ▸ fragment_carries_text markdown⟩

end Block

end Markdown

end UiMarkdown
