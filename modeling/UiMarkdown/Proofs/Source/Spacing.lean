import UiMarkdown.Proofs.Source.Separate

/-!
# Blank lines before fences

The scan for fences goes over the lines once and remembers the fence that is open
and whether the line before was blank.  A blank line that is put before a fence
leaves this scan as it is: no fence is open there, and none opens.  So a second
scan sees the same fences, with the same lines inside, and has nothing left to do.
-/

namespace UiMarkdown

namespace Fence

def openAfter (lines : List (List Char)) : Option Fence :=
  (lines.foldl scanLine (none, true)).1

def opensBehind (before : List (List Char)) (line : List Char) : Bool :=
  (openAfter before).isNone && (opening? (Text.dropLineEnds line)).isSome

def endsInText (lines : List (List Char)) : Bool :=
  lines.getLast?.any fun last => !Text.allBlank last

/-- Lines with a blank line before each one that opens a fence right after text. -/
def spacedLines (lines : List (List Char)) : List (List Char) :=
  lines.zipIdx.flatMap fun (line, i) =>
    if opensBehind (lines.take i) line && endsInText (lines.take i) then [['\n'], line] else [line]

/-- The lines that are read while a fence is open, each with this fence. -/
def fencedLines : (opened : Option Fence) → List (List Char) → List (Fence × List Char)
  | _, [] => []
  | none, line :: rest => fencedLines (after none (Text.dropLineEnds line)) rest
  | some fence, line :: rest =>
      (fence, line) :: fencedLines (after (some fence) (Text.dropLineEnds line)) rest

/-! ## Where blank lines are put -/

theorem snd_foldl_scanLine (lines : List (List Char)) :
    (lines.foldl scanLine (none, true)).2 = !endsInText lines := by
  rcases List.eq_nil_or_concat lines with rfl | ⟨before, last, rfl⟩
  · rfl
  · rw [List.concat_eq_append, List.foldl_concat, endsInText, List.getLast?_concat, Option.any_some,
      Bool.not_not]
    exact Text.allBlank_dropLineEnds last

theorem needsGap_foldl_scanLine (before : List (List Char)) (line : List Char) :
    let (opened, afterBlank) := before.foldl scanLine (none, true)
    needsGap opened afterBlank (Text.dropLineEnds line) =
      (opensBehind before line && endsInText before) := by
  have blank := snd_foldl_scanLine before
  rw [opensBehind, openAfter]
  generalize before.foldl scanLine (none, true) = state at blank ⊢
  obtain ⟨opened, afterBlank⟩ := state
  dsimp only at blank ⊢
  rw [needsGap, blank, Bool.not_not]

/-- What is put before a line depends on the lines before it.  The induction is on those left. -/
theorem separateLines_eq_flatMap (before lines : List (List Char)) :
    let (opened, afterBlank) := before.foldl scanLine (none, true)
    separateLines opened afterBlank lines =
      (lines.zipIdx before.length).flatMap fun (line, i) =>
        if opensBehind ((before ++ lines).take i) line && endsInText ((before ++ lines).take i) then
          [['\n'], line]
        else [line] := by
  induction lines generalizing before with
  | nil => rfl
  | cons line lines ih =>
      have later := ih (before ++ [line])
      have gap := needsGap_foldl_scanLine before line
      rw [List.foldl_concat, List.length_append, List.length_singleton, List.append_assoc,
        List.singleton_append] at later
      generalize before.foldl scanLine (none, true) = state at later gap ⊢
      obtain ⟨opened, afterBlank⟩ := state
      dsimp only [scanLine] at later gap ⊢
      rw [separateLines, List.zipIdx_cons, List.flatMap_cons, ← later, List.take_left, gap]
      split <;> rfl

/-- The lines of a separated text are the lines that were put together. -/
theorem linesWithEnds_separateLines {lines : List (List Char)}
    (own : Text.linesWithEnds lines.flatten = lines) (opened : Option Fence) (afterBlank : Bool) :
    Text.linesWithEnds (separateLines opened afterBlank lines).flatten =
      separateLines opened afterBlank lines := by
  induction lines generalizing opened afterBlank with
  | nil => rfl
  | cons line lines ih =>
      obtain ⟨single, later, ended⟩ := Text.linesWithEnds_of_eq_cons own
      rw [separateLines]
      generalize after opened (Text.dropLineEnds line) = opened'
      generalize Text.allBlank (Text.dropLineEnds line) = afterBlank'
      have more := ih later opened' afterBlank'
      have joined : Text.linesWithEnds (line ++ (separateLines opened' afterBlank' lines).flatten) =
          line :: separateLines opened' afterBlank' lines := by
        cases lines with
        | nil =>
            rw [separateLines, List.flatten_nil, List.append_nil]
            exact single
        | cons next lines =>
            rw [Text.linesWithEnds_append (ended (List.cons_ne_nil next lines)), single, more]
            rfl
      split
      · rw [List.flatten_cons, List.flatten_cons, List.singleton_append, Text.linesWithEnds, joined]
        rfl
      · rw [List.flatten_cons, joined]

/-! ## A second scan -/

/-- A blank line needs no other before it. -/
theorem needsGap_nil (opened : Option Fence) (afterBlank : Bool) :
    needsGap opened afterBlank [] = false := by
  cases opened <;> rfl

theorem dropLineEnds_feed : Text.dropLineEnds ['\n'] = [] :=
  rfl

/-- Separated lines are not separated further. -/
theorem separateLines_separateLines (opened : Option Fence) (afterBlank : Bool)
    (lines : List (List Char)) :
    separateLines opened afterBlank (separateLines opened afterBlank lines) =
      separateLines opened afterBlank lines := by
  induction lines generalizing opened afterBlank with
  | nil => rfl
  | cons line lines ih =>
      rw [separateLines]
      split
      · rename_i gap
        -- the blank line leaves the scan outside of a fence and after a blank line
        obtain rfl : opened = none := by
          rw [needsGap, Bool.and_eq_true, Bool.and_eq_true, Option.isNone_iff_eq_none] at gap
          exact gap.1.1
        have closed : after none [] = none := rfl
        have spaced : needsGap none (Text.allBlank []) (Text.dropLineEnds line) = false :=
          Bool.and_false _
        rw [separateLines, dropLineEnds_feed, needsGap_nil, if_neg Bool.false_ne_true,
          separateLines, closed, spaced, if_neg Bool.false_ne_true, ih]
      · rename_i noGap
        rw [separateLines, if_neg noGap, ih]

/-- Where nothing is put between lines, none of them opens a fence right after text. -/
theorem needsGap_of_separateLines_eq {opened : Option Fence} {afterBlank : Bool}
    {before after : List (List Char)} {line : List Char}
    (same : separateLines opened afterBlank (before ++ line :: after) = before ++ line :: after) :
    let (opened, afterBlank) := before.foldl scanLine (opened, afterBlank)
    needsGap opened afterBlank (Text.dropLineEnds line) = false := by
  induction before generalizing opened afterBlank with
  | nil =>
      rw [List.nil_append, separateLines] at same
      split at same
      · rw [List.cons.injEq] at same
        rw [← same.1]
        exact needsGap_nil opened afterBlank
      · rename_i noGap
        exact Bool.eq_false_iff.2 noGap
  | cons first before ih =>
      rw [List.cons_append, separateLines] at same
      split at same
      · rename_i gap
        rw [List.cons.injEq] at same
        rw [← same.1, dropLineEnds_feed, needsGap_nil] at gap
        cases gap
      · rw [List.cons.injEq] at same
        exact ih same.2

/-- The blank lines stand where no fence is open. -/
theorem fencedLines_separateLines (opened : Option Fence) (afterBlank : Bool)
    (lines : List (List Char)) :
    fencedLines opened (separateLines opened afterBlank lines) = fencedLines opened lines := by
  induction lines generalizing opened afterBlank with
  | nil => rfl
  | cons line lines ih =>
      rw [separateLines]
      cases opened with
      | none =>
          have closed : after none [] = none := rfl
          split
          · rw [fencedLines, dropLineEnds_feed, closed, fencedLines, fencedLines, ih]
          · rw [fencedLines, fencedLines, ih]
      | some fence =>
          have noGap : needsGap (some fence) afterBlank (Text.dropLineEnds line) = false := rfl
          rw [noGap, if_neg Bool.false_ne_true, fencedLines, fencedLines, ih]

/-! ## The separated text -/

/--
Separating fences puts a line feed before each line that opens a fence right after
text, and does nothing else.  Then every line that opens a fence is the first one
or follows a blank line, the lines inside of fences are the same, and separating
once more changes nothing.
-/
theorem separate_inserts (s : List Char) :
    let separated := Text.linesWithEnds (separate s)
    separated = spacedLines (Text.linesWithEnds s) ∧
      (∀ before line after, separated = before ++ line :: after →
        opensBehind before line = true →
          before = [] ∨ ∃ last, before.getLast? = some last ∧ Text.allBlank last = true) ∧
      fencedLines none separated = fencedLines none (Text.linesWithEnds s) ∧
      separate (separate s) = separate s := by
  have own : Text.linesWithEnds (Text.linesWithEnds s).flatten = Text.linesWithEnds s :=
    congrArg Text.linesWithEnds (Text.flatten_linesWithEnds s)
  have lines : Text.linesWithEnds (separate s) = separateLines none true (Text.linesWithEnds s) :=
    linesWithEnds_separateLines own none true
  have settled := separateLines_separateLines none true (Text.linesWithEnds s)
  intro separated
  dsimp only [separated]
  rw [lines]
  refine ⟨?_, ?_, ?_, ?_⟩
  · exact separateLines_eq_flatMap [] (Text.linesWithEnds s)
  · intro before line after split opens
    rw [split] at settled
    have noGap := needsGap_of_separateLines_eq settled
    have gap := needsGap_foldl_scanLine before line
    dsimp only at noGap gap
    rw [noGap, opens, Bool.true_and, endsInText] at gap
    cases last : before.getLast? with
    | none => exact .inl (List.getLast?_eq_none_iff.1 last)
    | some line =>
        rw [last, Option.any_some, eq_comm, Bool.not_eq_false'] at gap
        exact .inr ⟨line, rfl, gap⟩
  · exact fencedLines_separateLines none true (Text.linesWithEnds s)
  · rw [separate, lines, settled]
    rfl

/-- The fence inside of a longer one stays where it is. -/
example :
    String.ofList (separate "a\r\n\x60\x60\x60\x60\nb\n~~~\n\x60\x60\x60\x60\nc\n~~~ d".toList) =
      "a\r\n\n\x60\x60\x60\x60\nb\n~~~\n\x60\x60\x60\x60\nc\n\n~~~ d" := by
  decide +kernel

end Fence

end UiMarkdown
