import UiMarkdown.Proofs.Markdown.Code
import UiMarkdown.Proofs.Markdown.Gap
import UiMarkdown.Proofs.Source.Fence

/-!
# Code behind separated fences

A blank line is put before every opening fence that follows text.  What opens a
fence is decided line by line, without the blocks around it, so the line may be
one of a code block, and then the blank line gets into the code.  Where the block
parser has room for every blank line, the code of the text stays the same.
-/

namespace UiMarkdown

namespace Fence

open Markdown

/-! ## Lines that open a fence -/

/-- The block parser sees a fence at the start of a line that opens one. -/
theorem exists_startsFence {line : List Char} {fence : Fence}
    (opens : opening? (Text.dropLineEnds line) = some fence) :
    ∃ text more, laterLines line = text :: more ∧ Line.StartsFence { left := text } := by
  obtain ⟨ending, whole, isEnd⟩ := Text.exists_append_dropEnd (fun c => c == '\r' || c == '\n') line
  rw [opening?] at opens
  split at opens
  · rename_i other info found
    split at opens
    · cases opens
    · rename_i allowed
      cases opens
      obtain ⟨spaces, few, long, isMark, start⟩ := eq_of_read? found
      have noMark : fence.mark = '\x60' → '\x60' ∉ info ++ ending := by
        intro backtick mem
        rcases List.mem_append.1 mem with inside | ends
        · refine allowed ?_
          rw [backtick, beq_self_eq_true, Bool.true_and, List.contains_iff_mem]
          exact inside
        · exact absurd (List.all_eq_true.1 isEnd _ ends) (by decide)
      have solid : ∀ c ∈ List.replicate spaces ' ' ++ List.replicate fence.size fence.mark,
          (c ≠ '\r' ∧ c ≠ '\n') ∧ shown c = c := by
        intro c mem
        rcases List.mem_append.1 mem with mem | mem
        · rw [List.eq_of_mem_replicate mem]
          decide
        · rw [List.eq_of_mem_replicate mem]
          rcases isMark with mark | mark <;> rw [mark] <;> decide
      have nonempty : List.replicate spaces ' ' ++ List.replicate fence.size fence.mark ≠ [] := by
        rw [ne_eq, List.append_eq_nil_iff, List.replicate_eq_nil_iff, List.replicate_eq_nil_iff]
        omega
      obtain ⟨first, more, lines, inside⟩ :=
        cutLines_append_of_solid (fun c mem => (solid c mem).1) nonempty (info ++ ending)
      have split : line = List.replicate spaces ' ' ++ List.replicate fence.size fence.mark ++
          (info ++ ending) := by
        rw [whole, ← Text.dropLineEnds, start]
        simp only [List.append_assoc]
      refine ⟨_, _, by rw [laterLines, split, lines]; rfl, rfl, spaces,
        List.replicate fence.size fence.mark ++ first.map shown, few, ?_, ?_⟩
      · dsimp only
        rw [List.map_append, List.map_congr_left fun c mem => (solid c mem).2, List.map_id',
          List.append_assoc]
      · refine Option.isSome_of_eq_some (fenceStart?_replicate_append long
          (isMark.imp_left fun backtick => ⟨backtick, fun mem => ?_⟩))
        obtain ⟨c, isChar, same⟩ := List.mem_map.1 mem
        rw [shown] at same
        split at same
        · exact absurd same (by decide)
        · exact noMark backtick (inside (same ▸ isChar))
  · cases opens

/-! ## The code of a separated text -/

def scanLine (state : Option Fence × Bool) (line : List Char) : Option Fence × Bool :=
  (after state.1 (Text.dropLineEnds line), Text.allBlank (Text.dropLineEnds line))

/-- Whether the block parser has room for each blank line that is put before a fence. -/
def GapsClear (tables : Bool) (s : List Char) : Prop :=
  ∀ i, (inside : i < (Text.linesWithEnds s).length) →
    let before := (Text.linesWithEnds s).take i
    let (opened, afterBlank) := before.foldl scanLine (none, true)
    needsGap opened afterBlank (Text.dropLineEnds (Text.linesWithEnds s)[i]) = true →
      (readSoFar tables before.flatten).isClear = true

instance (tables : Bool) (s : List Char) : Decidable (GapsClear tables s) :=
  inferInstanceAs (Decidable (∀ i, (_ : i < (Text.linesWithEnds s).length) → _))

theorem GapsClear.room {tables : Bool} {s line : List Char} {before lines : List (List Char)}
    (clear : GapsClear tables s) (split : Text.linesWithEnds s = before ++ line :: lines)
    {opened : Option Fence} {afterBlank : Bool}
    (state : before.foldl scanLine (none, true) = (opened, afterBlank))
    (gap : needsGap opened afterBlank (Text.dropLineEnds line) = true) :
    (readSoFar tables before.flatten).isClear = true := by
  have room := clear before.length (by rw [split, List.length_append, List.length_cons]; omega)
  simp only [split, List.take_left, List.getElem_append_right (Nat.le_refl before.length),
    Nat.sub_self, List.getElem_cons_zero, state] at room
  exact room gap

/-- A blank line before a fence changes no block where the block parser has room for it. -/
theorem bare_readLines_of_needsGap (tables : Bool) {opened : Option Fence} {afterBlank : Bool}
    {line : List Char} (gap : needsGap opened afterBlank (Text.dropLineEnds line) = true)
    {progress : Progress} (nested : Nested progress.chain) (clear : progress.isClear = true)
    (m n : Nat) :
    (progress.readLines tables m ([] :: laterLines line)).1.bare =
      (progress.readLines tables n (laterLines line)).1.bare := by
  rw [needsGap, Bool.and_eq_true, Bool.and_eq_true, Option.isSome_iff_exists] at gap
  obtain ⟨fence, opens⟩ := gap.1.2
  obtain ⟨text, more, lines, fence⟩ := exists_startsFence opens
  rw [lines, Progress.readLines, Progress.readLines, Progress.readLines]
  exact Progress.bare_readLines_congr tables
    (bare_readLine_readLine_of_isClear nested clear tables fence _ _ _) _ _ more

theorem nested_readSoFar (tables : Bool) (s : List Char) :
    Nested (readSoFar tables s).chain := by
  let start : Progress := ⟨[{ shape := .document, first := 1 }], []⟩
  have nested : Nested start.chain :=
    ⟨fun _ isFirst => Option.some.inj isFirst ▸ rfl, .singleton _⟩
  exact nested.readLines tables 1 (textLines s)

/--
The lines that are left of a text, with blank lines before their fences, leave
the same blocks as the text.  The induction is on these lines.
-/
theorem bare_readLines_separateLines {tables : Bool} {s : List Char} (clear : GapsClear tables s)
    {before lines : List (List Char)} (split : Text.linesWithEnds s = before ++ lines)
    (nonempty : before ≠ []) {progress : Progress}
    (same : progress.bare = (readSoFar tables before.flatten).bare) (number : Nat) :
    let (opened, afterBlank) := before.foldl scanLine (none, true)
    (progress.readLines tables number
      (laterLines (separateLines opened afterBlank lines).flatten)).1.bare =
        (readSoFar tables s).bare := by
  induction lines generalizing before progress number with
  | nil =>
      rw [List.append_nil] at split
      rw [← Text.flatten_linesWithEnds s, split, ← same]
      rfl
  | cons line lines ih =>
      have ends : Text.EndsLine before.flatten := Text.endsLine_flatten split
      have starts : before.flatten ≠ [] := by
        obtain ⟨first, more, rfl⟩ := List.exists_cons_of_ne_nil nonempty
        intro none
        rw [List.flatten_cons, List.append_eq_nil_iff] at none
        refine Text.not_mem_linesWithEnds_nil s ?_
        rw [split, ← none.1]
        exact List.mem_cons_self
      have split' : Text.linesWithEnds s = (before ++ [line]) ++ lines := by
        rw [split, List.append_assoc, List.singleton_append]
      have read : readSoFar tables (before ++ [line]).flatten =
          ((readSoFar tables before.flatten).readLines tables
            (1 + (textLines before.flatten).length) (laterLines line)).1 := by
        rw [List.flatten_append, List.flatten_singleton, readSoFar, textLines_append ends starts,
          Progress.readLines_append]
        rfl
      have later {progress : Progress}
          (same : progress.bare = (readSoFar tables (before ++ [line]).flatten).bare) :=
        ih split' (List.append_ne_nil_of_right_ne_nil before (List.cons_ne_nil line [])) same
      rw [List.foldl_append] at later
      generalize isState : before.foldl scanLine (none, true) = state at later ⊢
      obtain ⟨opened, afterBlank⟩ := state
      dsimp only [scanLine, List.foldl_cons, List.foldl_nil] at later
      have joined : laterLines (line ++ (separateLines (after opened (Text.dropLineEnds line))
          (Text.allBlank (Text.dropLineEnds line)) lines).flatten) = laterLines line ++
            laterLines (separateLines (after opened (Text.dropLineEnds line))
              (Text.allBlank (Text.dropLineEnds line)) lines).flatten := by
        cases lines with
        | nil =>
            rw [separateLines, List.flatten_nil, List.append_nil]
            exact (List.append_nil _).symm
        | cons next more =>
            have ended := Text.endsLine_flatten split'
            rw [List.flatten_append, List.flatten_singleton] at ended
            exact laterLines_append ended.right_of_append _
      dsimp only
      rw [separateLines]
      split
      · rename_i gap
        rw [List.flatten_cons, List.flatten_cons, List.singleton_append]
        change (progress.readLines tables number ([] :: laterLines (line ++ _))).1.bare = _
        rw [joined, ← List.cons_append, Progress.readLines_append]
        refine later ?_ _
        rw [read, Progress.bare_readLines_congr tables same _ number]
        exact bare_readLines_of_needsGap tables gap (nested_readSoFar tables _)
          (clear.room split isState gap) _ _
      · rw [List.flatten_cons, joined, Progress.readLines_append]
        refine later ?_ _
        rw [read]
        exact Progress.bare_readLines_congr tables same _ _ _

/-- Putting blank lines before fences changes no code where the block parser has room for them. -/
theorem codes_parse_separate (extensions : Extensions) {s : List Char}
    (clear : GapsClear extensions.tables s) :
    codes (parse extensions (separate s)) = codes (parse extensions s) := by
  refine codes_parse_congr extensions ?_
  cases lines : Text.linesWithEnds s with
  | nil =>
      rw [Text.linesWithEnds_eq_nil_iff.1 lines]
      rfl
  | cons first more =>
      -- nothing is put before the first line, which alone may start with a byte order mark
      have noGap : needsGap none true (Text.dropLineEnds first) = false := Bool.and_false _
      have start : separate s = first ++ (separateLines (after none (Text.dropLineEnds first))
          (Text.allBlank (Text.dropLineEnds first)) more).flatten := by
        rw [separate, lines, separateLines, noGap]
        rfl
      cases more with
      | nil =>
          rw [start, ← Text.flatten_linesWithEnds s, lines]
          rfl
      | cons second more =>
          have split : Text.linesWithEnds s = [first] ++ second :: more := lines
          have ends := Text.endsLine_flatten split
          rw [List.flatten_singleton] at ends
          have nonempty : first ≠ [] := by
            rintro rfl
            exact Text.not_mem_linesWithEnds_nil s (lines ▸ List.mem_cons_self)
          have same : (readSoFar extensions.tables first).bare =
              (readSoFar extensions.tables [first].flatten).bare := by
            rw [List.flatten_singleton]
          have later := bare_readLines_separateLines clear split (List.cons_ne_nil first []) same
            (1 + (textLines first).length)
          rw [start, readSoFar, textLines_append ends nonempty, Progress.readLines_append]
          exact later

/-- Fences that follow a paragraph, an item and a quotation get blank lines, and keep their code. -/
theorem codes_parse_separate_behind_blocks :
    let extensions : Extensions := ⟨true, true, true⟩
    let s := "a\n\x60\x60\x60\nb\n\x60\x60\x60\n- c\n  ~~~\n  d\n  ~~~\n> e\n~~~\nf\n~~~\n".toList
    GapsClear extensions.tables s ∧ separate s ≠ s ∧
      codes (parse extensions (separate s)) = codes (parse extensions s) := by
  intro extensions s
  have clear : GapsClear extensions.tables s := by decide +kernel
  exact ⟨clear, by decide +kernel, codes_parse_separate extensions clear⟩

/--
A fence that the marker of an item comes before is not seen to open, so the line
that closes it is taken for one that opens a fence.
-/
theorem codes_parse_separate_ne_in_item :
    let s := "- \x60\x60\x60\n  a\n  \x60\x60\x60\n".toList
    ∃ extensions : Extensions, codes (parse extensions s) = ["a\n".toList] ∧
      codes (parse extensions (separate s)) = ["a\n\n".toList] ∧
      ¬ ∀ s, codes (parse extensions (separate s)) = codes (parse extensions s) := by
  intro s
  refine ⟨⟨true, true, true⟩, by decide +kernel, by decide +kernel, fun same => ?_⟩
  exact absurd (same s) (by decide +kernel)

end Fence

end UiMarkdown
