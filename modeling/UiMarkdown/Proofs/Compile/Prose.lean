import UiMarkdown.Proofs.Compile.Fragment
import UiMarkdown.Proofs.Document.Imageless
import UiMarkdown.Proofs.Markdown.Plain
import UiMarkdown.Proofs.Mask.Token

/-!
# Plain prose

Paragraphs and headings of plain text are a passage that has nothing but them: the
fragment holds one text for each, no repair touches it, and the source is the lines
that the blocks stand on.
-/

namespace UiMarkdown

open Markdown

namespace Fragment

/-- A text without images is normal. -/
theorem normalize_text (value : String) (imageless : hasImage value.toList = false) :
    normalize [.text value] = [.text value] := by
  have alone : settle [.text value] = [.text value] := by
    have whole : crosses (plainTexts [.text value]) = false := by
      rw [crosses, plainTexts, plainTexts, boundaries]
      simp
    have noMarkup : ([.text value] : List Fragment).any isDangling = false := rfl
    rw [settle, whole, noMarkup, Bool.or_false, if_neg Bool.false_ne_true]
  have still : mergeImages [.text value] = [.text value] := by
    refine mergeImages_of_imageless ?_
    rw [List.forall_mem_singleton]
    exact imageless
  have mergeable : isMergeable (.text value) = true := rfl
  rw [normalize, normalizeEach, normalizeEach, normalizeNode, repair, still, settleRuns,
    if_pos mergeable, settleRuns, List.nil_append, alone]

/-- An image opens with an exclamation mark. -/
theorem hasImage_of_not_mem {s : List Char} (plain : '!' ∉ s) : hasImage s = false := by
  induction s with
  | nil => rfl
  | cons c s ih =>
      rw [List.mem_cons, not_or] at plain
      have noImage : readImage? (c :: s) = none := by
        rw [readImage?]
        rintro rest same
        cases same
        exact plain.1 rfl
      rw [hasImage, noImage, ih plain.2]
      rfl

end Fragment

theorem Markdown.Raises.eq_nil_of_ok {α : Type} {pieces : List (List Char)} {value : α}
    (raises : Raises pieces (.ok value)) : pieces = [] := by
  cases pieces with
  | nil => rfl
  | cons piece rest => cases raises

/-- Lines of text with soft breaks between them are one text with line feeds. -/
theorem Markdown.Inline.mergedFragments_lines {lines : List (List Char)} (nonempty : lines ≠ [])
    (filled : ∀ line ∈ lines, line ≠ []) :
    mergedFragments ((lines.map .text).intersperse .softBreak) =
      .ok [.text (String.ofList (['\n'].intercalate lines))] := by
  suffices merged : ∃ nodes, toFragments ((lines.map .text).intersperse .softBreak) = .ok nodes ∧
      Fragment.mergeText nodes = [.text (String.ofList (['\n'].intercalate lines))] by
    obtain ⟨nodes, converted, merged⟩ := merged
    rw [mergedFragments, converted, ← merged]
    rfl
  induction lines with
  | nil => exact absurd rfl nonempty
  | cons line lines ih =>
      rw [List.forall_mem_cons] at filled
      cases lines with
      | nil =>
          refine ⟨[.text (String.ofList line)], rfl, ?_⟩
          rw [Fragment.mergeText, Fragment.mergeText, Fragment.consText, if_neg,
            List.intercalate_singleton]
          · simpa using filled.1
          · simp
      | cons next lines =>
          obtain ⟨nodes, converted, merged⟩ := ih (List.cons_ne_nil next lines) filled.2
          refine ⟨.text (String.ofList line) :: .text "\n" :: nodes, ?_, ?_⟩
          · rw [List.map_cons, List.map_cons, List.intersperse_cons_cons, ← List.map_cons,
              toFragments, toFragments, converted]
            rfl
          · rw [Fragment.mergeText, Fragment.mergeText, merged, Fragment.consText,
              Fragment.consText, List.intercalate_cons_cons]
            simp [String.ofList_append]

/-- A paragraph on its lines, or a heading. -/
inductive Prose where
  | paragraph (lines : List (List Char))
  | heading (level : Nat) (title : List Char)

namespace Prose

/-- The lines of prose, and what they are a draft of. -/
def block : Prose → List (List Char) × Shape
  | paragraph lines => (lines, .paragraph (Text.ofLines lines))
  | heading level title =>
      ([List.replicate level '#' ++ ' ' :: title], .heading level title)

def toBlock : Prose → Block
  | paragraph lines => .paragraph ((lines.map .text).intersperse .softBreak)
  | heading level title => .heading level [.text title]

def fragment : Prose → Fragment
  | paragraph lines => .paragraph [.text (String.ofList (['\n'].intercalate lines))]
  | heading level title => .heading level [.text (String.ofList title)]

/-- Prose of which nothing has a meaning of its own but the mark of a heading. -/
def Plain : Prose → Prop
  | paragraph lines => lines ≠ [] ∧ ∀ line ∈ lines, PlainLine line
  | heading level title => 1 ≤ level ∧ level ≤ 6 ∧ PlainTitle title

instance : DecidablePred Plain
  | paragraph lines => inferInstanceAs (Decidable (lines ≠ [] ∧ ∀ line ∈ lines, PlainLine line))
  | heading level title => inferInstanceAs (Decidable (1 ≤ level ∧ level ≤ 6 ∧ PlainTitle title))

/-- The source of prose, with a blank line between two blocks. -/
def source (parts : List Prose) : List Char :=
  ['\n'].intercalate (spaced (parts.map block))

end Prose

/-- The passage that prose is. -/
def Passage.ofProse (parts : List Prose) : Passage where
  fragment := parts.map Prose.fragment
  text := String.ofList (Fragment.flatten (parts.map Prose.fragment))
  refs := Fragment.references (parts.map Prose.fragment)
    (Fragment.flatten (parts.map Prose.fragment))
  source := String.ofList (Prose.source parts)

namespace Prose.Plain

variable {part : Prose}

theorem readAs (plain : part.Plain) (tables : Bool) : ReadAs tables part.block.1 part.block.2 := by
  cases part with
  | paragraph lines => exact readAs_paragraph tables plain.1 plain.2
  | heading level title => exact readAs_heading tables plain.1 plain.2.1 plain.2.2

theorem toBlock (plain : part.Plain) (tasks : Bool) (setting : Setting) (first last : Nat)
    (blank : Bool) :
    (Draft.block part.block.2 first last blank []).toBlock tasks setting = part.toBlock := by
  cases part with
  | paragraph lines =>
      have read := Inline.ofText_intercalate setting plain.1 (fun line mem => (plain.2 line mem).1)
        ['\n'] rfl
      rw [Prose.block, Draft.toBlock, Text.ofLines_eq_intercalate plain.1, read, Prose.toBlock]
  | heading level title =>
      have read := Inline.ofText_intercalate setting (List.cons_ne_nil title [])
        (List.forall_mem_singleton.2 plain.2.2.1) [] rfl
      rw [List.intercalate_singleton, List.append_nil] at read
      rw [Prose.block, Draft.toBlock, read, Prose.toBlock]
      rfl

theorem toFragment (plain : part.Plain) : part.toBlock.toFragment = .ok [part.fragment] := by
  cases part with
  | paragraph lines =>
      rw [Prose.toBlock, Block.toFragment, Inline.mergedFragments_lines plain.1
        fun line mem => (plain.2 line mem).nonempty]
      rfl
  | heading level title =>
      have merged := Inline.mergedFragments_lines (List.cons_ne_nil title [])
        (List.forall_mem_singleton.2 plain.2.2.nonempty)
      rw [List.intercalate_singleton] at merged
      rw [Prose.toBlock, Block.toFragment]
      exact congrArg (Except.map fun cs => [Fragment.heading level cs]) merged

theorem rawPieces (plain : part.Plain) : part.toBlock.rawPieces = [] := by
  have raises := Block.raises_toFragment part.toBlock
  rw [plain.toFragment] at raises
  exact raises.eq_nil_of_ok

theorem normalizeNode (plain : part.Plain) :
    Fragment.normalizeNode part.fragment = part.fragment := by
  cases part with
  | paragraph lines =>
      have none : Fragment.hasImage (['\n'].intercalate lines) = false := by
        refine Fragment.hasImage_of_not_mem fun mem => ?_
        have inLines : '!' ∈ Text.ofLines lines := by
          rw [Text.ofLines_eq_intercalate plain.1]
          exact List.mem_append_left _ mem
        obtain ⟨line, isLine, mem⟩ := List.mem_flatMap.1 inLines
        rw [List.mem_append, List.mem_singleton] at mem
        rcases mem with mem | same
        · cases (plain.2 line isLine).plain _ mem
        · cases same
      have normal := Fragment.normalize_text (String.ofList (['\n'].intercalate lines))
        (by rw [String.toList_ofList, none])
      rw [Fragment.normalize] at normal
      rw [Prose.fragment, Fragment.normalizeNode, normal]
  | heading level title =>
      have none : Fragment.hasImage title = false := by
        refine Fragment.hasImage_of_not_mem fun mem => ?_
        cases plain.2.2.plain _ mem
      have normal := Fragment.normalize_text (String.ofList title)
        (by rw [String.toList_ofList, none])
      rw [Fragment.normalize] at normal
      rw [Prose.fragment, Fragment.normalizeNode, normal]

/-- The last line of prose is a text that has something other than white space at its end. -/
theorem exists_lines (plain : part.Plain) :
    ∃ front last, part.block.1 = front ++ [last] ∧ last ≠ [] ∧ Text.trimEnd last = last := by
  cases part with
  | paragraph lines =>
      obtain ⟨front, last, rfl⟩ := (List.eq_nil_or_concat lines).resolve_left plain.1
      have text := plain.2 last (by simp)
      exact ⟨front, last, List.concat_eq_append, text.nonempty, text.trimEnd⟩
  | heading level title =>
      have kept := plain.2.2.trimEnd
      refine ⟨[], _, rfl, by simp, ?_⟩
      rw [← List.singleton_append, ← List.append_assoc, Text.trimEnd_append, kept]
      rw [kept]
      exact plain.2.2.nonempty

end Prose.Plain

namespace Prose

variable {parts : List Prose}

theorem exists_spaced (nonempty : parts ≠ []) (plain : ∀ part ∈ parts, part.Plain) :
    ∃ front last, spaced (parts.map block) = front ++ [last] ∧ last ≠ [] ∧
      Text.trimEnd last = last := by
  obtain ⟨before, part, rfl⟩ := (List.eq_nil_or_concat parts).resolve_left nonempty
  obtain ⟨front, last, lines, filled, trimmed⟩ := (plain part (by simp)).exists_lines
  rw [List.concat_eq_append, List.map_append, List.map_singleton]
  by_cases single : before = []
  · refine ⟨front, last, ?_, filled, trimmed⟩
    rw [single, List.map_nil, List.nil_append, spaced_singleton, lines]
  · refine ⟨spaced (before.map block) ++ [] :: front, last, ?_, filled, trimmed⟩
    rw [spaced_append (by simpa using single) (List.cons_ne_nil _ _), spaced_singleton, lines]
    simp

/-- The source of prose stands without white space at its end. -/
theorem trimEnd_source (nonempty : parts ≠ []) (plain : ∀ part ∈ parts, part.Plain) :
    Text.trimEnd (source parts) = source parts ∧ source parts ≠ [] := by
  obtain ⟨front, last, lines, filled, trimmed⟩ := exists_spaced nonempty plain
  have whole : source parts = Text.ofLines front ++ last := by
    rw [source, lines, Text.intercalate_append_cons, List.flatMap_nil, List.append_nil]
    rfl
  rw [whole]
  refine ⟨?_, List.append_ne_nil_of_right_ne_nil _ filled⟩
  rw [Text.trimEnd_append, trimmed]
  rwa [trimmed]

end Prose

/-! ## Prose on its lines -/

theorem map_block_placedFrom (extensions : Extensions) (before : Nat) {parts : List Prose}
    (plain : ∀ part ∈ parts, part.Plain) :
    (placedFrom extensions before (parts.map Prose.block)).map (·.block) =
      parts.map Prose.toBlock := by
  induction parts generalizing before with
  | nil => rfl
  | cons part parts ih =>
      obtain ⟨here, later⟩ := List.forall_mem_cons.1 plain
      have rest := ih (before + part.block.1.length + 1) later
      rw [placedFrom] at rest ⊢
      rw [List.map_cons, List.map_cons, draftsFrom, List.map_cons, List.map_cons, rest,
        Draft.toPlaced]
      exact congrArg (· :: _)
        (here.toBlock _ _ (before + 1) (before + part.block.1.length) false)

theorem lines_placedFrom (extensions : Extensions) (before : Nat)
    {blocks : List (List (List Char) × Shape)} (nonempty : blocks ≠ []) :
    ∃ first last, (placedFrom extensions before blocks).head? = some first ∧
      (placedFrom extensions before blocks).getLast? = some last ∧
      first.first = before + 1 ∧ last.last = before + (spaced blocks).length := by
  induction blocks generalizing before with
  | nil => exact absurd rfl nonempty
  | cons block blocks ih =>
      obtain ⟨lines, shape⟩ := block
      cases blocks with
      | nil => exact ⟨_, _, rfl, rfl, rfl, by rw [spaced_singleton]; rfl⟩
      | cons next blocks =>
          obtain ⟨_, last, -, isLast, -, ends⟩ :=
            ih (before + lines.length + 1) (List.cons_ne_nil next blocks)
          refine ⟨_, last, rfl, ?_, rfl, ?_⟩
          · rw [placedFrom] at isLast ⊢
            rw [draftsFrom, List.map_cons, List.getLast?_cons, isLast]
            rfl
          · rw [ends, spaced_cons_cons, List.length_append, List.length_cons]
            dsimp only
            omega

namespace Body

variable {body : Body}

/-- The source of blocks is the lines that they stand on. -/
theorem sourceOf_placedFrom (extensions : Extensions) {before after : List (List Char)}
    {blocks : List (List (List Char) × Shape)} (nonempty : blocks ≠ [])
    (filled : spaced blocks ≠ []) (lines : body.lines = before ++ spaced blocks ++ after) :
    body.sourceOf (placedFrom extensions before.length blocks) =
      body.mask.restore (Text.trimEnd (['\n'].intercalate (spaced blocks))) := by
  obtain ⟨first, last, isFirst, isLast, starts, ends⟩ :=
    lines_placedFrom extensions before.length nonempty
  have some := List.length_pos_iff.2 filled
  have start : max first.first 1 = before.length + 1 := by omega
  have count : min (max last.last (before.length + 1)) body.lines.length + 1 -
      (before.length + 1) = (spaced blocks).length := by
    rw [lines, List.length_append, List.length_append]
    omega
  rw [sourceOf, isFirst, isLast]
  dsimp only
  rw [start, count, lines, Nat.add_sub_cancel, List.append_assoc, List.drop_left, List.take_left]

/-- Prose is the passage that has its paragraphs and headings. -/
theorem passageOf_prose (unmasked : body.mask.spans = []) (extensions : Extensions)
    {before after : List (List Char)} {parts : List Prose} (nonempty : parts ≠ [])
    (plain : ∀ part ∈ parts, part.Plain)
    (lines : body.lines = before ++ spaced (parts.map Prose.block) ++ after) :
    body.passageOf (placedFrom extensions before.length (parts.map Prose.block)) =
      .ofProse parts := by
  have converted : Block.toFragments (parts.map Prose.toBlock) =
      .ok (parts.map Prose.fragment) := by
    clear lines nonempty
    induction parts with
    | nil => rfl
    | cons part parts ih =>
        obtain ⟨here, later⟩ := List.forall_mem_cons.1 plain
        rw [List.map_cons, Block.toFragments, here.toFragment, ih later]
        rfl
  have blocks : Fragment.AllBlocks (parts.map Prose.fragment) := by
    intro node mem
    obtain ⟨part, -, rfl⟩ := List.mem_map.1 mem
    cases part <;> rfl
  have restored : Fragment.restoreAll body.mask (parts.map Prose.fragment) =
      parts.map Prose.fragment := by
    have still (value : String) : body.mask.restoreString value = value := by
      rw [Mask.restoreString, Mask.restore_of_unmasked unmasked, String.ofList_toList]
    rw [Fragment.restoreAll_eq_map]
    refine (List.map_congr_left fun node mem => ?_).trans (List.map_id _)
    obtain ⟨part, -, rfl⟩ := List.mem_map.1 mem
    cases part with
    | paragraph lines => simp [Prose.fragment, Fragment.restore, Fragment.restoreAll, still]
    | heading level title => simp [Prose.fragment, Fragment.restore, Fragment.restoreAll, still]
  have normal : Fragment.normalize (parts.map Prose.fragment) = parts.map Prose.fragment := by
    rw [Fragment.normalize_of_allBlocks blocks, List.map_map]
    exact List.map_congr_left fun part mem => (plain part mem).normalizeNode
  have fragment : body.fragmentOf (placedFrom extensions before.length (parts.map Prose.block)) =
      parts.map Prose.fragment := by
    rw [fragmentOf, map_block_placedFrom extensions before.length plain, converted]
    dsimp only
    rw [Fragment.mergeText_of_allBlocks blocks, restored, normal]
  obtain ⟨trimmed, -⟩ := Prose.trimEnd_source nonempty plain
  have filled : spaced (parts.map Prose.block) ≠ [] := by
    obtain ⟨front, last, split, -, -⟩ := Prose.exists_spaced nonempty plain
    rw [split]
    exact List.concat_ne_nil _ _
  have source : body.sourceOf (placedFrom extensions before.length (parts.map Prose.block)) =
      Prose.source parts := by
    rw [sourceOf_placedFrom extensions (by simpa using nonempty) filled lines,
      Mask.restore_of_unmasked unmasked]
    exact trimmed
  rw [passageOf, fragment, source]
  rfl

end Body

end UiMarkdown
