import UiMarkdown.Proofs.Compile.Document
import UiMarkdown.Proofs.Compile.Walk
import UiMarkdown.Proofs.Document.Ids
import UiMarkdown.Proofs.Source.Frontmatter
import UiMarkdown.Proofs.Source.Metadata

/-!
# Compiling the source of a document

The source of a compiled document compiles to the same document, ids aside,
exactly when it reads back: its frontmatter gives the metadata, and its blocks
amount to the walk through the nodes.  Everything else follows: the nesting, the
dependencies, the check of the queries and the source that is written next.
-/

namespace UiMarkdown

def Body.ofText (text document : List Char) : Body where
  lines := Text.lines (Fence.separate (Mask.ofText text).1)
  mask := (Mask.ofText text).2
  document := document

def Body.blocksOf (options : CompileOptions) (text : List Char) : List Markdown.Placed :=
  Markdown.parse options.extensions (Fence.separate (Mask.ofText text).1)

theorem Node.ofText_eq_treeOf (options : CompileOptions) (text document : List Char) :
    ofText options text document =
      (Body.ofText text document).treeOf (Body.blocksOf options text) :=
  rfl

namespace Document

def writtenBody (document : Document) : List Char :=
  (Frontmatter.split document.write).2

/-- The source of a document holds its metadata and, block by block, its nodes. -/
structure ReadsBack (options : CompileOptions) (document : Document) : Prop where
  metadata : Meta.ofFrontmatter (Frontmatter.split document.write).1 =
    .ok { document.metadata with dependencies := {} }
  markdown : ∀ placed ∈ Body.blocksOf options document.writtenBody, placed.block.rawPieces = []
  marks : (Body.ofText document.writtenBody document.write).marksOf
    (Body.blocksOf options document.writtenBody) = Node.marksOfAll document.ast

instance (options : CompileOptions) (document : Document) :
    Decidable (document.ReadsBack options) :=
  decidable_of_iff (_ ∧ _ ∧ _)
    ⟨fun ⟨metadata, markdown, marks⟩ => ⟨metadata, markdown, marks⟩,
      fun reads => ⟨reads.metadata, reads.markdown, reads.marks⟩⟩

/--
If the written metadata ends its last line, the metadata has to come back from
its own mapping and the nodes from their own blocks.
-/
theorem readsBack_iff {options : CompileOptions} {document : Document}
    (ends : ∀ yaml ∈ document.metadata.frontmatter?, Text.EndsLine yaml) :
    document.ReadsBack options ↔
      Meta.ofFrontmatter document.metadata.frontmatter? =
          .ok { document.metadata with dependencies := {} } ∧
        (∀ placed ∈ Body.blocksOf options document.sourceBody, placed.block.rawPieces = []) ∧
        (Body.ofText document.sourceBody document.write).marksOf
          (Body.blocksOf options document.sourceBody) = Node.marksOfAll document.ast := by
  have body : document.writtenBody = document.sourceBody := by
    rw [writtenBody, split_write ends]
  have metadata : Meta.ofFrontmatter (Frontmatter.split document.write).1 =
      Meta.ofFrontmatter document.metadata.frontmatter? := by
    rw [split_write ends]
    split
    · rename_i headless
      rw [frontmatter?_of_headText (List.isEmpty_iff.1 headless)]
    · exact Meta.ofFrontmatter_getD _
  constructor
  · rintro ⟨read, markdown, marks⟩
    rw [metadata] at read
    rw [body] at markdown marks
    exact ⟨read, markdown, marks⟩
  · rintro ⟨read, markdown, marks⟩
    rw [← metadata] at read
    rw [← body] at markdown marks
    exact ⟨read, markdown, marks⟩

/-- Ids aside, a document is its metadata without dependencies and its nodes. -/
theorem clearIds_ofParts_eq_iff {metadata metadata' : Meta} {ast ast' : List Node}
    (plain : metadata.dependencies = {}) (plain' : metadata'.dependencies = {}) :
    (ofParts metadata ast).clearIds = (ofParts metadata' ast').clearIds ↔
      metadata = metadata' ∧ Node.clearIds ast = Node.clearIds ast' := by
  obtain ⟨identity, queries, actions, components, events, dependencies, extra⟩ := metadata
  obtain ⟨identity', queries', actions', components', events', dependencies', extra'⟩ := metadata'
  cases plain
  cases plain'
  constructor
  · intro same
    simp only [ofParts, updateDependencies, clearIds, Document.mk.injEq, Meta.mk.injEq] at same ⊢
    simp only [same, and_self]
  · rintro ⟨same, nodes⟩
    cases same
    have dependencies : Dependencies.ofNodes ast = Dependencies.ofNodes ast' := by
      rw [Dependencies.ofNodes, ← Dependencies.addNodes_clearIds, nodes,
        Dependencies.addNodes_clearIds, ← Dependencies.ofNodes]
    simp only [ofParts, updateDependencies, clearIds, nodes, dependencies]

/--
A compiled document comes back from its own source, ids aside, and with the
same source again, exactly when it reads back.
-/
theorem round_trip_iff {options : CompileOptions} {source : List Char} {document : Document}
    (compiled : compile options source = .ok document) :
    (∃ again, compile options document.write = .ok again ∧
      again.clearIds = document.clearIds ∧ again.write = document.write) ↔
      document.ReadsBack options := by
  obtain ⟨metadata, ast, read, -, legacy, rfl⟩ := compile_eq_ok_iff.1 compiled
  have plain := (Meta.sorted_ofFrontmatter read).dependencies
  have stripped : { (ofParts metadata ast).metadata with dependencies := {} } = metadata := by
    rw [← plain]
    rfl
  constructor
  · rintro ⟨again, compiled', same, -⟩
    obtain ⟨metadata', ast', read', built, -, rfl⟩ := compile_eq_ok_iff.1 compiled'
    have plain' := (Meta.sorted_ofFrontmatter read').dependencies
    obtain ⟨rfl, nodes⟩ := (clearIds_ofParts_eq_iff plain' plain).1 same
    rw [Node.ofText_eq_treeOf] at built
    refine ⟨by rw [stripped]; exact read', Body.exists_treeOf_iff.1 ⟨ast', built⟩, ?_⟩
    rw [writtenBody, ← Body.marksOfAll_treeOf built]
    exact (Node.clearIds_eq_iff_marks _ _).1 nodes
  · rintro ⟨read', markdown, marks⟩
    rw [stripped] at read'
    obtain ⟨ast', built⟩ := Body.exists_treeOf_iff.2 markdown
    rw [← Body.marksOfAll_treeOf built] at marks
    have same : (ofParts metadata ast').clearIds = (ofParts metadata ast).clearIds :=
      (clearIds_ofParts_eq_iff plain plain).2 ⟨rfl, (Node.clearIds_eq_iff_marks _ _).2 marks⟩
    refine ⟨ofParts metadata ast', ?_, same, ?_⟩
    · exact compile_eq_ok_iff.2 ⟨metadata, ast', read', built, legacy, rfl⟩
    · rw [← write_clearIds, same, write_clearIds]

/-- A text with an expression in a row that is never closed comes back. -/
theorem round_trip_of_unclosed :
    let source := "```hstack.start\n```\n\n*a* \x7b\x7bb\x7d\x7d".toList
    ∃ document again, compile {} source = .ok document ∧
      compile {} document.write = .ok again ∧
      again.clearIds = document.clearIds ∧ again.write = document.write := by
  intro source
  have compiled : compile {} source = .ok ((compile {} source).toOption.getD empty) := by
    decide +kernel
  have reads : ((compile {} source).toOption.getD empty).ReadsBack {} := by decide +kernel
  obtain ⟨again, compiled', same⟩ := (round_trip_iff compiled).2 reads
  exact ⟨_, again, compiled, compiled', same⟩

/-- The definition of a link stands in no block, so the source of the document lacks it. -/
theorem round_trip_fails_of_definition :
    let source := "see [x]\n\n[x]: /u\n".toList
    ∃ document, compile {} source = .ok document ∧
      ¬ ∃ again, compile {} document.write = .ok again ∧
        again.clearIds = document.clearIds ∧ again.write = document.write := by
  intro source
  have compiled : compile {} source = .ok ((compile {} source).toOption.getD empty) := by
    decide +kernel
  refine ⟨_, compiled, ?_⟩
  rw [round_trip_iff compiled]
  decide +kernel

end Document

end UiMarkdown
