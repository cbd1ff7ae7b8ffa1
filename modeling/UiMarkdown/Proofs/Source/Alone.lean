import UiMarkdown.Proofs.Markdown.Sequence
import UiMarkdown.Proofs.Text.Trim
import UiMarkdown.Source.Fence

/-!
# Blocks that stand alone

Some blocks are read from their own lines, whatever comes before them: prose, and
fences in which nothing is escaped.  In a text that has only such blocks, with a
blank line between two of them, no line is put before a fence, and the blocks of
the text are these.
-/

namespace UiMarkdown

open Markdown

/-- A line as it is in a text: no character in it ends a line or is replaced. -/
def Text.CleanLine (line : List Char) : Prop :=
  ∀ c ∈ line, c ∉ ['\n', '\r', '\x00']

namespace Text.CleanLine

variable {line : List Char}

theorem feed_not_mem (clean : CleanLine line) : '\n' ∉ line :=
  fun mem => clean _ mem (by simp)

theorem return_not_mem (clean : CleanLine line) : '\r' ∉ line :=
  fun mem => clean _ mem (by simp)

theorem dropLineEnds (clean : CleanLine line) : Text.dropLineEnds (line ++ ['\n']) = line :=
  Text.dropLineEnds_concat clean.feed_not_mem clean.return_not_mem

end Text.CleanLine

theorem Text.lines_ofLines_of_clean {lines : List (List Char)}
    (clean : ∀ line ∈ lines, CleanLine line) : Text.lines (ofLines lines) = lines :=
  lines_ofLines (fun line mem => (clean line mem).feed_not_mem)
    fun line mem => (clean line mem).return_not_mem

namespace Fence

/-- Lines to which nothing is added behind a blank line, and behind which no fence is open. -/
def Passes (lines : List (List Char)) : Prop :=
  ∃ blank, ∀ rest, separateLines none true (lines.map (· ++ ['\n']) ++ rest) =
    lines.map (· ++ ['\n']) ++ separateLines none blank rest

/-- Lines that neither open nor close a fence are left alone. -/
theorem separateLines_of_steady {opened : Option Fence} {lines : List (List Char)}
    (steady : ∀ line ∈ lines, after opened (Text.dropLineEnds (line ++ ['\n'])) = opened)
    (blank : Bool) :
    ∃ blank', ∀ rest, separateLines opened blank (lines.map (· ++ ['\n']) ++ rest) =
      lines.map (· ++ ['\n']) ++ separateLines opened blank' rest := by
  induction lines generalizing blank with
  | nil => exact ⟨blank, fun _ => rfl⟩
  | cons line lines ih =>
      rw [List.forall_mem_cons] at steady
      obtain ⟨blank', same⟩ := ih steady.2 (Text.allBlank (Text.dropLineEnds (line ++ ['\n'])))
      have noGap : needsGap opened blank (Text.dropLineEnds (line ++ ['\n'])) = false := by
        cases opened with
        | some fence => rfl
        | none =>
            have shut : opening? (Text.dropLineEnds (line ++ ['\n'])) = none := steady.1
            rw [needsGap, shut]
            rfl
      refine ⟨blank', fun rest => ?_⟩
      rw [List.map_cons, List.cons_append, separateLines, noGap, if_neg Bool.false_ne_true,
        steady.1, same, List.cons_append]

namespace Passes

variable {lines more : List (List Char)}

theorem cons_nil (passes : Passes lines) : Passes ([] :: lines) := by
  obtain ⟨blank, same⟩ := passes
  refine ⟨blank, fun rest => ?_⟩
  have gap (rest : List (List Char)) :
      separateLines none true (['\n'] :: rest) = ['\n'] :: separateLines none true rest := rfl
  rw [List.map_cons, List.nil_append, List.cons_append, gap, same, List.cons_append]

theorem append (first : Passes lines) (second : Passes more) : Passes (lines ++ [] :: more) := by
  obtain ⟨blank, here⟩ := first
  obtain ⟨blank', there⟩ := second
  refine ⟨blank', fun rest => ?_⟩
  have gap (rest : List (List Char)) :
      separateLines none blank (['\n'] :: rest) = ['\n'] :: separateLines none true rest := rfl
  rw [List.map_append, List.append_assoc, here, List.map_cons, List.nil_append, List.cons_append,
    gap, there, List.append_assoc, List.cons_append]

theorem separate (passes : Passes lines) (clean : ∀ line ∈ lines, Text.CleanLine line) :
    separate (Text.ofLines lines) = Text.ofLines lines := by
  obtain ⟨blank, same⟩ := passes
  have scanned := same []
  rw [List.append_nil, separateLines, List.append_nil] at scanned
  rw [Fence.separate, Text.linesWithEnds_ofLines fun line mem => (clean line mem).feed_not_mem,
    scanned, Text.ofLines, List.flatMap_def]

end Passes

end Fence

namespace Markdown

/-- Lines that are read as one block, and that are the lines of any text they are in. -/
structure StandsAlone (tables : Bool) (block : List (List Char) × Shape) : Prop where
  read : ReadAs tables block.1 block.2
  passes : Fence.Passes block.1
  clean : ∀ line ∈ block.1, Text.CleanLine line
  starts : ∃ c line lines, block.1 = (c :: line) :: lines ∧ c ≠ '\uFEFF'

namespace StandsAlone

variable {tables : Bool} {blocks : List (List (List Char) × Shape)}

theorem passes_spaced (alone : ∀ block ∈ blocks, StandsAlone tables block)
    (nonempty : blocks ≠ []) : Fence.Passes (spaced blocks) := by
  induction blocks with
  | nil => exact absurd rfl nonempty
  | cons block blocks ih =>
      obtain ⟨here, later⟩ := List.forall_mem_cons.1 alone
      cases blocks with
      | nil =>
          rw [spaced_singleton]
          exact here.passes
      | cons next blocks =>
          rw [spaced_cons_cons]
          exact here.passes.append (ih later (List.cons_ne_nil next blocks))

theorem clean_spaced (alone : ∀ block ∈ blocks, StandsAlone tables block) :
    ∀ line ∈ spaced blocks, Text.CleanLine line := by
  induction blocks with
  | nil => exact List.forall_mem_nil _
  | cons block blocks ih =>
      obtain ⟨here, later⟩ := List.forall_mem_cons.1 alone
      cases blocks with
      | nil =>
          rw [spaced_singleton]
          exact here.clean
      | cons next blocks =>
          rw [spaced_cons_cons, List.forall_mem_append, List.forall_mem_cons]
          exact ⟨here.clean, List.forall_mem_nil _, ih later⟩

theorem starts_spaced (alone : ∀ block ∈ blocks, StandsAlone tables block)
    (nonempty : blocks ≠ []) : ∃ c line lines, spaced blocks = (c :: line) :: lines ∧
      c ≠ '\uFEFF' := by
  obtain ⟨block, blocks, rfl⟩ := List.exists_cons_of_ne_nil nonempty
  obtain ⟨c, line, lines, starts, noMark⟩ := (alone block List.mem_cons_self).starts
  cases blocks with
  | nil => exact ⟨c, line, lines, by rw [spaced_singleton, starts], noMark⟩
  | cons next blocks =>
      exact ⟨c, line, _, by rw [spaced_cons_cons, starts, List.cons_append], noMark⟩

end StandsAlone

theorem unifyLineEnds_eq_self {s : List Char} (noReturn : '\r' ∉ s) (noNull : '\x00' ∉ s) :
    unifyLineEnds s = s := by
  induction s with
  | nil => rfl
  | cons c s ih =>
      rw [List.mem_cons, not_or] at noReturn noNull
      have other : ¬ (c == '\x00') = true := by
        rw [beq_iff_eq]
        exact fun same => noNull.1 same.symm
      rw [unifyLineEnds, if_neg other, ih noReturn.2 noNull.2]
      · rintro rest rfl
        exact absurd rfl noReturn.1
      · rintro rfl
        exact absurd rfl noReturn.1

/-- The lines of a text of clean lines are these. -/
theorem textLines_ofLines {lines : List (List Char)}
    (clean : ∀ line ∈ lines, Text.CleanLine line)
    (starts : (Text.ofLines lines).head? ≠ some '\uFEFF') :
    textLines (Text.ofLines lines) = lines := by
  have absent {c : Char} (noLine : c ∈ ['\r', '\x00']) : c ∉ Text.ofLines lines := by
    intro mem
    obtain ⟨line, isLine, mem⟩ := List.mem_flatMap.1 mem
    rw [List.mem_append, List.mem_singleton] at mem
    rcases mem with mem | rfl
    · exact clean line isLine c mem (List.mem_cons_of_mem _ noLine)
    · revert noLine
      decide
  rw [textLines, if_neg (by simpa using starts),
    unifyLineEnds_eq_self (absent (by simp)) (absent (by simp)), Text.lines_ofLines_of_clean clean]

/-- Blocks that stand alone, perhaps behind a blank line, are the blocks of their text. -/
theorem parse_of_standsAlone {extensions : Extensions}
    {blocks : List (List (List Char) × Shape)}
    (alone : ∀ block ∈ blocks, StandsAlone extensions.tables block) (nonempty : blocks ≠ [])
    {lead : List (List Char)} (isLead : lead = [] ∨ lead = [[]]) :
    let s := Text.ofLines (lead ++ spaced blocks)
    Fence.separate s = s ∧ Text.lines s = lead ++ spaced blocks ∧
      parse extensions s = placedFrom extensions lead.length blocks := by
  intro s
  have clean : ∀ line ∈ lead ++ spaced blocks, Text.CleanLine line := by
    rw [List.forall_mem_append]
    refine ⟨?_, StandsAlone.clean_spaced alone⟩
    rcases isLead with rfl | rfl
    · exact List.forall_mem_nil _
    · exact List.forall_mem_singleton.2 (List.forall_mem_nil _)
  have passes : Fence.Passes (lead ++ spaced blocks) := by
    have passes := StandsAlone.passes_spaced alone nonempty
    rcases isLead with rfl | rfl
    · exact passes
    · exact passes.cons_nil
  have starts : s.head? ≠ some '\uFEFF' := by
    obtain ⟨c, line, lines, split, noMark⟩ := StandsAlone.starts_spaced alone nonempty
    rcases isLead with rfl | rfl
    · simp only [s, split, List.nil_append, Text.ofLines_cons, List.cons_append, List.head?_cons]
      simpa using noMark
    · simp [s, Text.ofLines_cons]
  refine ⟨passes.separate clean, ?_, ?_⟩
  · exact Text.lines_ofLines_of_clean clean
  · exact parse_spaced extensions isLead (textLines_ofLines clean starts)
      (fun block mem => (alone block mem).read) nonempty

end Markdown

end UiMarkdown
