import UiMarkdown.Proofs.Source.Payload
import UiMarkdown.Proofs.Source.Plain

/-!
# Plain documents

A document reads back if its passages are plain prose, its payloads and its
metadata are those of their own Yaml, nothing in its fences is escaped and there
are no expressions in it: every block of the source is a piece that stands alone
and comes back as the mark that it was written for.
-/

namespace UiMarkdown

open Markdown

/-- The mark that a fence is for in a text without expressions. -/
def Directive.mark (source : List Char) : Directive → Mark
  | .leaf kind => .leaf kind (Payload.ofBody source)
  | .opening kind => .opening (.ofPayload kind (Payload.ofBody source))
  | .closing _ => .closing
  | .code info => .code info (String.ofList source)

theorem Body.marksOfGroup_fence {body : Body} (fresh : body.mask.Fresh)
    (unmasked : body.mask.spans = []) (directive : Directive) (source : List Char) :
    body.marksOfGroup (.fence directive source) = [directive.mark source] := by
  have payload : body.payload source = Payload.ofBody source := by
    rw [Body.payload_eq_ofBody_iff fresh]
    rintro text - ⟨digits, -, -, live, -⟩
    rw [unmasked] at live
    exact absurd live (Nat.not_lt_zero _)
  cases directive with
  | leaf kind => rw [marksOfGroup, payload, Directive.mark]
  | opening kind => rw [marksOfGroup, payload, Directive.mark]
  | closing kind => rw [marksOfGroup, Directive.mark]
  | code info => rw [marksOfGroup, Mask.restore_of_unmasked unmasked, Directive.mark]

/-! ## Pieces -/

/-- A written block, the blocks that it is read as, and the mark that they are for. -/
structure Piece (extensions : Extensions) where
  written : Written
  mark : Mark
  blocks : List (List (List Char) × Shape)
  nonempty : blocks ≠ []
  alone : ∀ block ∈ blocks, StandsAlone extensions.tables block
  text : written.text ++ ['\n'] = Text.ofLines (spaced blocks)
  read : ∀ before, written.ReadAs (placedFrom extensions before blocks)
  marked : ∀ {body : Body} (before after : List (List Char)), body.mask.Fresh →
    body.mask.spans = [] → body.lines = before ++ spaced blocks ++ after →
    body.marksOfGroup (written.group (placedFrom extensions before.length blocks)) = [mark]

namespace Piece

variable {extensions : Extensions}

theorem readAs_ofFence (extensions : Extensions) (before : Nat) (info body : List Char) :
    (Written.fence info body).ReadAs
      (placedFrom extensions before [Fence.block info body]) :=
  .fence info body _ _

def ofFence (extensions : Extensions) {info body : List Char} (plain : Fence.PlainInfo info)
    (clean : Fence.PlainBody body) : Piece extensions where
  written := .fence info body
  mark := (Directive.ofInfo info).mark (Fence.ended body)
  blocks := [Fence.block info body]
  nonempty := List.cons_ne_nil _ _
  alone := List.forall_mem_singleton.2 (Fence.standsAlone_block extensions.tables plain clean)
  text := by rw [Written.text, spaced_singleton, Fence.ofLines_block clean]
  read before := readAs_ofFence extensions before info body
  marked _ _ fresh unmasked _ := by
    rw [Written.group, Body.marksOfGroup_fence fresh unmasked]

theorem ofFence_mark {info body : List Char} (plain : Fence.PlainInfo info)
    (clean : Fence.PlainBody body) :
    (ofFence extensions plain clean).mark = (Directive.ofInfo info).mark (Fence.ended body) :=
  rfl

theorem readAs_ofProse (extensions : Extensions) (before : Nat) {parts : List Prose}
    (nonempty : parts ≠ []) (plain : ∀ part ∈ parts, part.Plain) :
    (Written.markdown (Prose.source parts)).ReadAs
      (placedFrom extensions before (parts.map Prose.block)) := by
  have blocks := map_block_placedFrom extensions before plain
  have ofPart : ∀ placed ∈ placedFrom extensions before (parts.map Prose.block),
      ∃ part ∈ parts, part.toBlock = placed.block := by
    intro placed mem
    have isBlock := List.mem_map_of_mem (f := (·.block)) mem
    rw [blocks] at isBlock
    exact List.mem_map.1 isBlock
  refine .markdown ?_ ?_ ?_
  · obtain ⟨placed, mem⟩ : ∃ placed, placed ∈
        placedFrom extensions before (parts.map Prose.block) := by
      refine List.exists_mem_of_ne_nil _ fun none => nonempty ?_
      rw [none, List.map_nil] at blocks
      exact List.map_eq_nil_iff.1 blocks.symm
    obtain ⟨part, -, same⟩ := ofPart placed mem
    refine ⟨placed, mem, ?_⟩
    rw [← same]
    cases part <;> rfl
  · intro placed mem info literal isFence
    obtain ⟨part, -, same⟩ := ofPart placed mem
    rw [← same] at isFence
    cases part <;> cases isFence
  · intro placed mem
    obtain ⟨part, inside, same⟩ := ofPart placed mem
    rw [← same, (plain part inside).rawPieces]

def ofProse (extensions : Extensions) {parts : List Prose} (nonempty : parts ≠ [])
    (plain : ∀ part ∈ parts, part.Plain) : Piece extensions where
  written := .markdown (Prose.source parts)
  mark := .passage (.ofProse parts)
  blocks := parts.map Prose.block
  nonempty := by simpa using nonempty
  alone := List.forall_mem_map.2 fun part mem => (plain part mem).standsAlone extensions.tables
  text := by
    obtain ⟨front, last, split, -⟩ := Prose.exists_spaced nonempty plain
    rw [Written.text, Prose.source, Text.ofLines_eq_intercalate]
    exact split ▸ List.concat_ne_nil _ _
  read before := readAs_ofProse extensions before nonempty plain
  marked before after fresh unmasked lines := by
    cases readAs_ofProse extensions before.length nonempty plain with
    | markdown left _ markdown =>
        rw [Written.group, Body.marksOfGroup_run _ left markdown,
          Body.passageOf_prose unmasked extensions nonempty plain lines]

theorem flatMap_blocks_ne_nil {pieces : List (Piece extensions)} (nonempty : pieces ≠ []) :
    pieces.flatMap (·.blocks) ≠ [] := by
  obtain ⟨piece, pieces, rfl⟩ := List.exists_cons_of_ne_nil nonempty
  rw [List.flatMap_cons]
  exact List.append_ne_nil_of_left_ne_nil piece.nonempty _

/-- The text of pieces, with a blank line between two of them, has their blocks one by one. -/
theorem text_intercalate {pieces : List (Piece extensions)} (nonempty : pieces ≠ []) :
    ['\n', '\n'].intercalate (pieces.map (·.written.text)) ++ ['\n'] =
      Text.ofLines (spaced (pieces.flatMap (·.blocks))) := by
  induction pieces with
  | nil => exact absurd rfl nonempty
  | cons piece pieces ih =>
      cases pieces with
      | nil =>
          rw [List.map_singleton, List.intercalate_singleton, List.flatMap_singleton, piece.text]
      | cons next pieces =>
          have later := ih (List.cons_ne_nil next pieces)
          have some := flatMap_blocks_ne_nil (List.cons_ne_nil next pieces)
          rw [List.flatMap_cons, spaced_append piece.nonempty some, Text.ofLines_append,
            Text.ofLines_cons, ← later, ← piece.text, List.map_cons, List.map_cons,
            List.intercalate_cons_cons]
          simp

/--
Where the lines of a body are those of pieces, each piece is read as what was
written, and the group of its blocks has its mark.
-/
theorem exists_runs {body : Body} (fresh : body.mask.Fresh) (unmasked : body.mask.spans = [])
    (pieces : List (Piece extensions)) {before after : List (List Char)}
    (lines : body.lines = before ++ spaced (pieces.flatMap (·.blocks)) ++ after) :
    ∃ runs, placedFrom extensions before.length (pieces.flatMap (·.blocks)) = runs.flatten ∧
      List.Forall₂ Written.ReadAs (pieces.map (·.written)) runs ∧
      (List.zipWith Written.group (pieces.map (·.written)) runs).flatMap body.marksOfGroup =
        pieces.map (·.mark) := by
  induction pieces generalizing before with
  | nil => exact ⟨[], rfl, .nil, rfl⟩
  | cons piece pieces ih =>
      cases pieces with
      | nil =>
          rw [List.flatMap_singleton] at lines ⊢
          have marked := piece.marked before after fresh unmasked lines
          refine ⟨[placedFrom extensions before.length piece.blocks], ?_,
            .cons (piece.read before.length) .nil, ?_⟩
          · rw [List.flatten_singleton]
          · rw [List.map_singleton, List.zipWith_cons_cons, List.flatMap_cons, marked]
            rfl
      | cons next pieces =>
          have some := flatMap_blocks_ne_nil (List.cons_ne_nil next pieces)
          rw [List.flatMap_cons, spaced_append piece.nonempty some] at lines
          have marked := piece.marked before
            ([] :: spaced ((next :: pieces).flatMap (·.blocks)) ++ after) fresh unmasked
            (by rw [lines]; simp)
          have later : body.lines = (before ++ spaced piece.blocks ++ [[]]) ++
              spaced ((next :: pieces).flatMap (·.blocks)) ++ after := by
            rw [lines]
            simp
          obtain ⟨runs, placed, read, marks⟩ := ih later
          have length : (before ++ spaced piece.blocks ++ [[]]).length =
              before.length + (spaced piece.blocks).length + 1 := by
            simp [Nat.add_assoc]
          refine ⟨placedFrom extensions before.length piece.blocks :: runs, ?_,
            .cons (piece.read before.length) read, ?_⟩
          · rw [List.flatten_cons, ← placed, length, List.flatMap_cons, placedFrom,
              draftsFrom_append _ piece.nonempty, List.map_append]
            rfl
          · rw [List.map_cons, List.zipWith_cons_cons, List.flatMap_cons, marked, marks]
            rfl

end Piece

/-! ## Plain nodes -/

/-- A payload that its own Yaml is read as. -/
structure Payload.Plain (payload : Object) : Prop where
  body : Fence.PlainBody (Payload.write payload)
  same : Payload.ofBody (Fence.ended (Payload.write payload)) = payload

instance (payload : Object) : Decidable (Payload.Plain payload) :=
  decidable_of_iff (Fence.PlainBody (Payload.write payload) ∧
      Payload.ofBody (Fence.ended (Payload.write payload)) = payload)
    ⟨fun ⟨body, same⟩ => ⟨body, same⟩, fun plain => ⟨plain.body, plain.same⟩⟩

namespace Node

mutual

/-- A node of plain prose and code, whose payloads have a property. -/
def Plain (P : Object → Prop) : Node → Prop
  | .passage _ p =>
      ∃ parts : List Prose, parts ≠ [] ∧ (∀ part ∈ parts, part.Plain) ∧ p = .ofProse parts
  | .leaf _ _ data => P data
  | .code _ info text =>
      (∃ read, Directive.ofInfo read = .code info) ∧ Text.EndsLine text.toList ∧
        Fence.PlainInfo info.toInfo ∧ Fence.PlainBody text.toList
  | .container _ frame children =>
      P frame.toPayload ∧ .ofPayload frame.container frame.toPayload = frame ∧
        PlainAll P children

def PlainAll (P : Object → Prop) : List Node → Prop
  | [] => True
  | node :: more => Plain P node ∧ PlainAll P more

end

end Node

theorem Prose.passageBlock?_ofProse {parts : List Prose} (nonempty : parts ≠ [])
    (plain : ∀ part ∈ parts, part.Plain) :
    Node.passageBlock? (.ofProse parts) = some (source parts) := by
  obtain ⟨trimmed, filled⟩ := trimEnd_source nonempty plain
  have text : (Passage.ofProse parts).source.toList = source parts := String.toList_ofList
  have some : (Passage.ofProse parts).source.isEmpty = false := by
    rw [Bool.eq_false_iff, ne_eq, String.isEmpty_iff, ← String.toList_eq_nil_iff, text]
    exact filled
  have solid : Text.allBlank (source parts) = false := by
    rw [Bool.eq_false_iff]
    intro blank
    rw [Text.trimEnd, Text.dropEnd_eq_nil blank] at trimmed
    exact filled trimmed.symm
  rw [Node.passageBlock?, some, if_neg Bool.false_ne_true, text, solid, if_neg Bool.false_ne_true,
    trimmed]

theorem WrittenInfo.plain_leaf (kind : Leaf) : Fence.PlainInfo kind.tag.toList := by
  cases kind <;> decide

theorem WrittenInfo.plain_openTag (kind : Container) : Fence.PlainInfo kind.openTag.toList := by
  cases kind <;> decide

theorem WrittenInfo.plain_closeTag (kind : Container) : Fence.PlainInfo kind.closeTag.toList := by
  cases kind <;> decide

namespace Node

mutual

theorem exists_pieces (extensions : Extensions) : (node : Node) → node.Plain Payload.Plain →
    node.Writable ∧ ∃ pieces : List (Piece extensions),
      pieces.map (·.written) = node.written ∧ pieces.map (·.mark) = node.marks
  | .passage _ p, plain => by
      rw [Plain] at plain
      obtain ⟨parts, nonempty, plain, rfl⟩ := plain
      have block := Prose.passageBlock?_ofProse nonempty plain
      refine ⟨?_, [.ofProse extensions nonempty plain], ?_, ?_⟩
      · rw [Writable, block]
        rfl
      · rw [written, block]
        rfl
      · rw [marks]
        rfl
  | .leaf _ kind data, plain => by
      rw [Plain] at plain
      refine ⟨trivial, [.ofFence extensions (WrittenInfo.plain_leaf kind) plain.body], ?_, ?_⟩
      · rw [written]
        rfl
      · rw [marks, List.map_singleton, Piece.ofFence_mark, Directive.ofInfo_tag, Directive.mark,
          plain.same]
  | .code _ info text, plain => by
      rw [Plain] at plain
      obtain ⟨⟨read, isCode⟩, ends, plain, clean⟩ := plain
      refine ⟨?_, [.ofFence extensions plain clean], ?_, ?_⟩
      · rw [Writable]
        exact ⟨⟨read, isCode⟩, ends⟩
      · rw [written]
        rfl
      · rw [marks, List.map_singleton, Piece.ofFence_mark, Directive.ofInfo_toInfo isCode,
          Directive.mark, Fence.ended_of_endsLine ends, String.ofList_toList]
  | .container _ frame children, plain => by
      rw [Plain] at plain
      obtain ⟨payload, same, plain⟩ := plain
      obtain ⟨writable, pieces, isWritten, isMarks⟩ := exists_pieces_all extensions children plain
      have blank : Fence.PlainBody [] := List.forall_mem_nil _
      refine ⟨?_, .ofFence extensions (WrittenInfo.plain_openTag frame.container) payload.body ::
        pieces ++ [.ofFence extensions (WrittenInfo.plain_closeTag frame.container) blank], ?_, ?_⟩
      · rw [Writable]
        exact writable
      · rw [written, ← isWritten, List.map_append]
        rfl
      · rw [marks, ← isMarks, List.map_append, List.map_cons, List.map_singleton,
          Piece.ofFence_mark, Piece.ofFence_mark, Directive.ofInfo_openTag,
          Directive.ofInfo_closeTag, Directive.mark, Directive.mark, payload.same, same]

theorem exists_pieces_all (extensions : Extensions) : (nodes : List Node) →
    PlainAll Payload.Plain nodes →
    WritableAll nodes ∧ ∃ pieces : List (Piece extensions),
      pieces.map (·.written) = writtenOfAll nodes ∧ pieces.map (·.mark) = marksOfAll nodes
  | [], _ => by
      refine ⟨trivial, [], ?_, ?_⟩
      · rw [writtenOfAll, List.map_nil]
      · rw [marksOfAll_nil, List.map_nil]
  | node :: more, plain => by
      rw [PlainAll] at plain
      obtain ⟨writable, pieces, isWritten, isMarks⟩ := exists_pieces extensions node plain.1
      obtain ⟨later, others, areWritten, areMarks⟩ := exists_pieces_all extensions more plain.2
      refine ⟨?_, pieces ++ others, ?_, ?_⟩
      · rw [WritableAll]
        exact ⟨writable, later⟩
      · rw [writtenOfAll, List.map_append, isWritten, areWritten]
      · rw [marksOfAll_cons, List.map_append, isMarks, areMarks]

end

end Node

namespace Document

/--
A document of plain nodes without expressions, with metadata that its own Yaml is
read as.
-/
structure Plain (document : Document) : Prop where
  metadata : { document.metadata with dependencies := {} }.Sorted
  yaml : ∀ yaml ∈ document.metadata.frontmatter?, Text.EndsLine yaml ∧
    Frontmatter.parse yaml = .ok (Object.ofList document.metadata.toMapping)
  nodes : Node.PlainAll Payload.Plain document.ast
  apart : Node.SpacedAll document.ast
  spanless : ¬ Template.HasSpan document.bodyText

namespace Plain

variable {document : Document}

theorem ofFrontmatter (plain : document.Plain) :
    Meta.ofFrontmatter document.metadata.frontmatter? =
      .ok { document.metadata with dependencies := {} } := by
  have sorted : Meta.ofRaw (Object.ofList document.metadata.toMapping) =
      { document.metadata with dependencies := {} } :=
    plain.metadata.ofRaw_ofList_toMapping
  cases found : document.metadata.frontmatter? with
  | none =>
      have empty : document.metadata.toMapping = [] := by
        rw [Meta.frontmatter?] at found
        split at found
        · rename_i none
          exact List.isEmpty_iff.1 none
        · cases found
      rw [← sorted, empty]
      rfl
  | some yaml =>
      rw [Meta.ofFrontmatter, (plain.yaml yaml found).2, ← sorted]
      rfl

theorem not_hasSpan_sourceBody (plain : document.Plain) :
    ¬ Template.HasSpan document.sourceBody := by
  have nothing : ¬ Template.HasSpan [] := Template.cutSpan?_eq_none_iff.1 rfl
  have ended : ¬ Template.HasSpan (document.bodyText ++ ['\n']) := by
    rw [Template.hasSpan_append_cons_iff (by decide) (by decide)]
    rintro (inside | inside | ⟨-, closes⟩)
    · exact plain.spanless inside
    · exact nothing inside
    · exact absurd (List.infix_nil.1 closes) (by decide)
  rw [sourceBody]
  split
  · exact nothing
  · split
    · exact ended
    · rwa [List.append_assoc, List.singleton_append,
        Template.hasSpan_cons_iff (by decide) (by decide)]

end Plain

/-- The body of a source that is made of pieces has their lines, perhaps behind a blank line. -/
theorem exists_lead {document : Document} {extensions : Extensions}
    {pieces : List (Piece extensions)} (nonempty : pieces ≠ [])
    (isWritten : pieces.map (·.written) = Node.writtenOfAll document.ast) :
    ∃ lead, (lead = [] ∨ lead = [[]]) ∧
      document.sourceBody = Text.ofLines (lead ++ spaced (pieces.flatMap (·.blocks))) := by
  have text : document.bodyText ++ ['\n'] =
      Text.ofLines (spaced (pieces.flatMap (·.blocks))) := by
    rw [← Piece.text_intercalate nonempty, bodyText, ← Node.map_text_writtenOfAll, ← isWritten,
      List.map_map]
    rfl
  have filled : document.bodyText.isEmpty = false := by
    obtain ⟨c, line, lines, split, -⟩ := StandsAlone.starts_spaced
      (List.forall_mem_flatMap.2 fun piece _ => piece.alone) (Piece.flatMap_blocks_ne_nil nonempty)
    rw [Bool.eq_false_iff, ne_eq, List.isEmpty_iff]
    intro none
    rw [none, split, Text.ofLines_cons] at text
    simpa using congrArg List.length text
  rw [sourceBody, filled, if_neg Bool.false_ne_true]
  split
  · exact ⟨[], .inl rfl, text⟩
  · refine ⟨[[]], .inr rfl, ?_⟩
    rw [List.append_assoc, text]
    rfl

namespace Plain

variable {document : Document}

/-- Without expressions, the lines and the blocks of the source are those of the pieces. -/
theorem exists_lines (plain : document.Plain) (options : CompileOptions)
    {pieces : List (Piece options.extensions)}
    (isWritten : pieces.map (·.written) = Node.writtenOfAll document.ast) :
    let body := Body.ofText document.sourceBody document.write
    body.mask.spans = [] ∧ ∃ lead, body.lines = lead ++ spaced (pieces.flatMap (·.blocks)) ∧
      Body.blocksOf options document.sourceBody =
        placedFrom options.extensions lead.length (pieces.flatMap (·.blocks)) := by
  have masked := Mask.maskText_of_cutSpan?_eq_none (Mask.freshStem [document.sourceBody]) 0
    (Template.cutSpan?_eq_none_iff.2 plain.not_hasSpan_sourceBody)
  rw [Body.ofText, Body.blocksOf, Mask.ofText, masked]
  refine ⟨rfl, ?_⟩
  by_cases none : pieces = []
  · have empty : document.sourceBody = [] := by
      rw [none, List.map_nil] at isWritten
      rw [sourceBody, bodyText, ← Node.map_text_writtenOfAll, ← isWritten]
      rfl
    rw [none, empty]
    exact ⟨[], rfl, rfl⟩
  · obtain ⟨lead, isLead, whole⟩ := exists_lead none isWritten
    obtain ⟨still, lines, blocks⟩ := parse_of_standsAlone
      (List.forall_mem_flatMap.2 fun (piece : Piece options.extensions) _ => piece.alone)
      (Piece.flatMap_blocks_ne_nil none) isLead
    dsimp only
    rw [whole, still]
    exact ⟨lead, lines, blocks⟩

/-- A plain document reads back from its source. -/
theorem readsBack (plain : document.Plain) (options : CompileOptions) :
    document.ReadsBack options := by
  obtain ⟨writable, pieces, isWritten, isMarks⟩ :=
    Node.exists_pieces_all options.extensions document.ast plain.nodes
  obtain ⟨unmasked, lead, lines, blocks⟩ := plain.exists_lines options isWritten
  have fresh : (Body.ofText document.sourceBody document.write).mask.Fresh := Mask.fresh_ofText _
  rw [← List.append_nil (lead ++ _)] at lines
  obtain ⟨runs, placed, read, marks⟩ := Piece.exists_runs fresh unmasked pieces lines
  rw [isWritten] at read marks
  rw [readsBack_iff fun yaml isYaml => (plain.yaml yaml isYaml).1, blocks, placed,
    Body.marksOf_of_readAs unmasked plain.apart writable read, marks, isMarks]
  exact ⟨plain.ofFrontmatter, Written.rawPieces_of_readAs read, rfl⟩

end Plain

end Document

end UiMarkdown
