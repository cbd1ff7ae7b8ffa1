import UiMarkdown.Proofs.Compile.Document
import UiMarkdown.Proofs.Compile.Walk
import UiMarkdown.Proofs.Document.Json
import UiMarkdown.Proofs.Markdown.Size
import UiMarkdown.Proofs.Source.Loop
import UiMarkdown.Proofs.Source.Metadata

/-!
# Compiled documents through Json

Compiling takes the names of sections out of the metadata and those of a loop out
of its data, and no mark of Markdown writes a large number.  So every document
that is compiled is read back from its Json.
-/

namespace UiMarkdown

/-! ## Metadata -/

namespace Meta

/-- The further data of metadata never has the name of a section. -/
theorem storable_ofFrontmatter {frontmatter : Option (List Char)} {metadata : Meta}
    (read : ofFrontmatter frontmatter = .ok metadata) : metadata.Storable :=
  ⟨(sorted_ofFrontmatter read).ascending, (sorted_ofFrontmatter read).apart⟩

end Meta

/-! ## Loops -/

/-- The further data of a loop never has one of the names that a loop reads. -/
theorem Loop.storable_ofPayload {payload : Object} (ascending : Object.Ascending payload) :
    (ofPayload payload).Storable := by
  constructor
  · rw [ofPayload, Object.Ascending, Layout.keys_sanitize]
    simp only [Object.erase_eq_without]
    apply Object.ascending_without
    apply Object.ascending_without
    exact Object.ascending_without ascending ["from"]
  · exact fun member mem taken => apart_ofPayload payload member mem (List.mem_cons_of_mem _ taken)

/-! ## Fragments -/

namespace Fragment

theorem storableAll_iff {nodes : List Fragment} :
    StorableAll nodes ↔ ∀ node ∈ nodes, node.Storable := by
  induction nodes with
  | nil => simp [StorableAll]
  | cons node more ih => rw [StorableAll, ih, List.forall_mem_cons]

theorem storableAll_mergeText {nodes : List Fragment} (storable : StorableAll nodes) :
    StorableAll (mergeText nodes) := by
  have consText (value : String) {rest : List Fragment} (storable : StorableAll rest) :
      StorableAll (consText value rest) := by
    rw [Fragment.consText.eq_def]
    split
    · exact ⟨trivial, storable.2⟩
    · split
      · exact storable
      · exact ⟨trivial, storable⟩
  induction nodes with
  | nil => trivial
  | cons node more ih =>
      rw [StorableAll] at storable
      cases node with
      | text value => exact consText value (ih storable.2)
      | _ => exact ⟨storable.1, ih storable.2⟩

mutual

theorem storable_restore (mask : Mask) :
    (node : Fragment) → node.Storable → (restore mask node).Storable
  | .paragraph cs, storable | .blockquote cs, storable | .listItem _ cs, storable
  | .table cs, storable | .tableRow cs, storable | .tableCell cs, storable
  | .emphasis cs, storable | .strong cs, storable | .delete cs, storable
  | .link _ _ cs, storable => by
      rw [Storable] at storable
      rw [restore, Storable]
      exact storableAll_restoreAll mask cs storable
  | .heading _ cs, storable | .list _ _ _ cs, storable => by
      rw [Storable] at storable
      rw [restore, Storable]
      exact ⟨storable.1, storableAll_restoreAll mask cs storable.2⟩
  | .code _ _, _ | .thematicBreak, _ | .text _, _ | .inlineCode _, _ | .lineBreak, _
  | .image _ _ _, _ => by
      rw [restore]
      trivial

theorem storableAll_restoreAll (mask : Mask) :
    (nodes : List Fragment) → StorableAll nodes → StorableAll (restoreAll mask nodes)
  | [], _ => by
      rw [restoreAll]
      trivial
  | node :: more, storable => by
      rw [StorableAll] at storable
      rw [restoreAll]
      exact ⟨storable_restore mask node storable.1, storableAll_restoreAll mask more storable.2⟩

end

theorem storableAll_append {nodes more : List Fragment} :
    StorableAll (nodes ++ more) ↔ StorableAll nodes ∧ StorableAll more := by
  rw [storableAll_iff, storableAll_iff, storableAll_iff, List.forall_mem_append]

theorem storableAll_textNode (s : List Char) : StorableAll (textNode s) := by
  rw [textNode]
  split
  · trivial
  · exact ⟨trivial, trivial⟩

theorem storableAll_splitImagesFrom (fuel : Nat) (before s : List Char) :
    StorableAll (splitImagesFrom fuel before s) := by
  fun_induction splitImagesFrom fuel before s with
  | case1 before s => exact storableAll_textNode _
  | case2 before fuel => exact storableAll_textNode _
  | case3 before fuel c rest alt url after _ ih =>
      exact storableAll_append.2 ⟨storableAll_textNode _, trivial, ih⟩
  | case4 before fuel c rest _ ih => exact ih

theorem storableAll_mergeImages {nodes : List Fragment} (storable : StorableAll nodes) :
    StorableAll (mergeImages nodes) := by
  rw [storableAll_iff] at storable
  rw [mergeImages, storableAll_iff, List.forall_mem_flatMap]
  intro node mem
  rw [← storableAll_iff]
  split
  · split
    · exact storableAll_splitImagesFrom _ _ _
    · exact ⟨trivial, trivial⟩
  · exact ⟨storable node mem, trivial⟩

theorem storableAll_settle {run : List Fragment} (storable : StorableAll run) :
    StorableAll (settle run) := by
  rw [settle]
  split
  · rw [storableAll_iff, List.forall_mem_map]
    exact fun _ _ => trivial
  · exact storable

theorem storableAll_settleRuns {run nodes : List Fragment} (begun : StorableAll run)
    (storable : StorableAll nodes) : StorableAll (settleRuns run nodes) := by
  induction nodes generalizing run with
  | nil => exact storableAll_settle begun
  | cons node rest ih =>
      rw [StorableAll] at storable
      rw [settleRuns]
      split
      · exact ih (storableAll_append.2 ⟨begun, storable.1, trivial⟩) storable.2
      · exact storableAll_append.2
          ⟨storableAll_settle begun, storable.1, ih trivial storable.2⟩

/-- Neither repair makes a number. -/
theorem storableAll_repair {nodes : List Fragment} (storable : StorableAll nodes) :
    StorableAll (repair nodes) :=
  storableAll_settleRuns trivial (storableAll_mergeImages storable)

mutual

theorem storable_normalizeNode : (node : Fragment) → node.Storable → (normalizeNode node).Storable
  | .paragraph cs, storable | .blockquote cs, storable | .listItem _ cs, storable
  | .table cs, storable | .tableRow cs, storable | .tableCell cs, storable
  | .emphasis cs, storable | .strong cs, storable | .delete cs, storable
  | .link _ _ cs, storable => by
      rw [Storable] at storable
      rw [normalizeNode, Storable]
      exact storableAll_repair (storableAll_normalizeEach cs storable)
  | .heading _ cs, storable | .list _ _ _ cs, storable => by
      rw [Storable] at storable
      rw [normalizeNode, Storable]
      exact ⟨storable.1, storableAll_repair (storableAll_normalizeEach cs storable.2)⟩
  | .code _ _, _ | .thematicBreak, _ | .text _, _ | .inlineCode _, _ | .lineBreak, _
  | .image _ _ _, _ => by
      rw [normalizeNode]
      trivial

theorem storableAll_normalizeEach :
    (nodes : List Fragment) → StorableAll nodes → StorableAll (normalizeEach nodes)
  | [], _ => by
      rw [normalizeEach]
      trivial
  | node :: more, storable => by
      rw [StorableAll] at storable
      rw [normalizeEach]
      exact ⟨storable_normalizeNode node storable.1, storableAll_normalizeEach more storable.2⟩

end

end Fragment

/-! ## Blocks -/

namespace Markdown

namespace Inline

mutual

theorem storable_toFragment : (inline : Inline) → Yields Fragment.StorableAll inline.toFragment
  | .text _ | .softBreak | .hardBreak | .code _ => by
      rw [toFragment]
      exact .ok ⟨trivial, trivial⟩
  | .html source => by
      rw [toFragment]
      exact .error source
  | .emphasis children | .strong children | .strike children | .link _ children => by
      rw [toFragment]
      exact (storableAll_toFragments children).map fun _ storable =>
        ⟨Fragment.storableAll_mergeText storable, trivial⟩
  | .image _ children => by
      rw [toFragment]
      exact (storableAll_toFragments children).map fun _ _ => ⟨trivial, trivial⟩
  | .group children => by
      rw [toFragment]
      exact storableAll_toFragments children

theorem storableAll_toFragments :
    (inlines : List Inline) → Yields Fragment.StorableAll (toFragments inlines)
  | [] => by
      rw [toFragments]
      exact .ok trivial
  | inline :: more => by
      rw [toFragments]
      apply (storable_toFragment inline).bind
      intro nodes storable
      apply (storableAll_toFragments more).bind
      intro later others
      exact .ok (Fragment.storableAll_append.2 ⟨storable, others⟩)

end

theorem storableAll_mergedFragments (content : List Inline) :
    Yields Fragment.StorableAll (mergedFragments content) :=
  (storableAll_toFragments content).map fun _ => Fragment.storableAll_mergeText

theorem storable_rowFragment (cells : List (List Inline)) :
    Yields Fragment.Storable (rowFragment cells) := by
  have cell (content : List Inline) :
      Yields Fragment.Storable ((mergedFragments content).map Fragment.tableCell) :=
    (storableAll_mergedFragments content).map fun _ storable => storable
  rw [rowFragment]
  apply (Yields.mapM cell cells).bind
  intro nodes storable
  exact .ok (Fragment.storableAll_iff.2 storable)

end Inline

namespace Block

mutual

/-- What a block becomes has the numbers of the block. -/
theorem storable_toFragment :
    (block : Block) → block.Sized → Yields Fragment.StorableAll block.toFragment
  | .paragraph content, _ => by
      rw [toFragment]
      exact (Inline.storableAll_mergedFragments content).map fun _ storable => ⟨storable, trivial⟩
  | .heading level content, sized => by
      rw [Sized] at sized
      rw [toFragment]
      exact (Inline.storableAll_mergedFragments content).map fun _ storable =>
        ⟨⟨Nat.lt_of_le_of_lt sized (by decide), storable⟩, trivial⟩
  | .quote children, sized | .item _ children, sized => by
      rw [Sized] at sized
      rw [toFragment]
      exact (storableAll_toFragments children sized).map fun _ storable => ⟨storable, trivial⟩
  | .list start tight items, sized => by
      rw [Sized] at sized
      rw [toFragment]
      exact (storableAll_toFragments items sized.2).map fun _ storable =>
        ⟨⟨fun number given => Nat.lt_trans (sized.1 number given) (by decide), storable⟩, trivial⟩
  | .code _ _ _, _ | .rule, _ => by
      rw [toFragment]
      exact .ok ⟨trivial, trivial⟩
  | .frontmatter _, _ => by
      rw [toFragment]
      exact .ok trivial
  | .html source, _ => by
      rw [toFragment]
      exact .error source
  | .table rows, _ => by
      rw [toFragment]
      exact (Yields.mapM Inline.storable_rowFragment rows).map fun _ storable =>
        ⟨Fragment.storableAll_iff.2 storable, trivial⟩
  | .group children, sized => by
      rw [Sized] at sized
      rw [toFragment]
      exact storableAll_toFragments children sized

theorem storableAll_toFragments :
    (blocks : List Block) → SizedAll blocks → Yields Fragment.StorableAll (toFragments blocks)
  | [], _ => by
      rw [toFragments]
      exact .ok trivial
  | block :: more, sized => by
      rw [SizedAll] at sized
      rw [toFragments]
      apply (storable_toFragment block sized.1).bind
      intro nodes storable
      apply (storableAll_toFragments more sized.2).bind
      intro later others
      exact .ok (Fragment.storableAll_append.2 ⟨storable, others⟩)

end

end Block

end Markdown

/-! ## Trees -/

namespace Body

theorem storableAll_fragmentOf (body : Body) {run : List Markdown.Placed}
    (sized : ∀ placed ∈ run, placed.block.Sized) :
    Fragment.StorableAll (body.fragmentOf run) := by
  have converted := Markdown.Block.storableAll_toFragments (run.map (·.block))
    (Markdown.Block.sizedAll_iff.2 (List.forall_mem_map.2 sized))
  rw [fragmentOf]
  split
  · rename_i nodes done
    have merged := Fragment.storableAll_mergeText (converted.holds nodes done)
    have restored := Fragment.storableAll_restoreAll body.mask _ merged
    exact Fragment.storableAll_repair (Fragment.storableAll_normalizeEach _ restored)
  · trivial

/-- Blocks with small numbers build a tree that can be stored. -/
theorem storable_treeOf {body : Body} {blocks : List Markdown.Placed} {tree : List Node}
    (sized : ∀ placed ∈ blocks, placed.block.Sized) (built : body.treeOf blocks = .ok tree) :
    ∀ mark ∈ Node.marksOfAll tree, mark.Storable := by
  rw [marksOfAll_treeOf built, marksOf, List.forall_mem_append]
  refine ⟨?_, fun mark mem => List.eq_of_mem_replicate mem ▸ trivial⟩
  rw [List.forall_mem_flatMap]
  intro group isGroup
  cases group with
  | run run =>
      rw [marksOfGroup]
      split
      · exact List.forall_mem_nil _
      · rw [List.forall_mem_singleton]
        have runs := Part.longestRuns_groups (Part.withoutStray 0 (blocks.map body.partOf))
        exact body.storableAll_fragmentOf fun placed mem =>
          sized placed (mem_of_mem_run runs isGroup mem)
  | fence directive source =>
      cases directive with
      | leaf | closing | code => exact List.forall_mem_singleton.2 trivial
      | opening kind =>
          rw [marksOfGroup, List.forall_mem_singleton]
          cases kind with
          | hstack | vstack => trivial
          | each => exact Loop.storable_ofPayload (Object.ascending_ofList _)

end Body

/-! ## Documents -/

namespace Document

theorem storable_of_compile {options : CompileOptions} {source : List Char} {document : Document}
    (compiled : compile options source = .ok document) : document.Storable := by
  obtain ⟨metadata, ast, read, built, -, rfl⟩ := compile_eq_ok_iff.1 compiled
  obtain ⟨ascending, apart⟩ := Meta.storable_ofFrontmatter read
  exact ⟨⟨ascending, apart⟩, Body.storable_treeOf (Markdown.sized_parse _ _) built⟩

/--
Json loses nothing of a document whose further data leaves the names of sections,
and those of a loop, to them: reading what is written gives the document back,
whatever is absent in it and however deep it nests.  Every document that is
compiled is such a one.
-/
theorem json_lossless :
    (∀ document : Document, document.Storable → ofJson? document.toJson = some document) ∧
      ∀ (options : CompileOptions) (source : List Char) (document : Document),
        compile options source = .ok document → document.Storable :=
  ⟨fun _ => ofJson?_toJson, fun _ _ _ => storable_of_compile⟩

/-- A section that is none, a loop with further data in a container that stays open, and lists
with and without a number. -/
theorem json_lossless_of_nested :
    let source := "---\ntitle: T\nqueries: 1\n---\n# a\n```hstack.start\nwidth: 3\n```\n" ++
      "```each.start\nfrom: queries.q\nas: i\nlimit: 4\n```\n7. b\n```button\n```\n" ++
      "```each.end\n```\n- [x] c\n```rust\nd\n```\n"
    let item (checked : Option Bool) (text : String) : Fragment :=
      .listItem checked [.paragraph [.text text]]
    let document := ofParts { extra := [("queries_invalid", .num (.int 1)), ("title", .str "T")] }
      [.passage "n1" ⟨[.heading 1 [.text "a"]], "a", [], "# a"⟩,
        .container "n2" (.hstack [("width", .str "3px")])
          [.container "n3" (.each ⟨"queries.q", "i", [("limit", .num (.int 4))]⟩)
            [.passage "n4" ⟨[.list true (some 7) false [item none "b"]], "b", [], "7. b"⟩,
              .leaf "n5" .button []],
            .passage "n6" ⟨[.list false none false [item (some true) "c"]], "c", [], "- [x] c"⟩,
            .code "n7" ⟨"rust", none⟩ "d\n"]]
    compile {} source.toList = .ok document ∧ document.Storable ∧
      ofJson? document.toJson = some document := by
  intro source item document
  have compiled : compile {} source.toList = .ok document := by decide +kernel
  have storable := json_lossless.2 {} source.toList document compiled
  exact ⟨compiled, storable, json_lossless.1 document storable⟩

end Document

end UiMarkdown
