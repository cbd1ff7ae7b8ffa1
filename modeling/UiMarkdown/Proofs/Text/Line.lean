import Mathlib.Data.List.Basic
import UiMarkdown.Text.Chars

/-!
# Lines of adjoining texts

A text whose last line has its end does not share a line with what follows it.
The lines that a text is cut into are the texts that stand in it as a line.
-/

namespace UiMarkdown

namespace Text

/-- A text is empty or its last line has its line feed. -/
def EndsLine (s : List Char) : Prop :=
  ∀ last ∈ s.getLast?, last = '\n'

theorem endsLine_nil : EndsLine [] := by
  intro last isLast
  cases isLast

namespace EndsLine

theorem cons_of_ne_nil {c : Char} {s : List Char} (ends : EndsLine s) (nonempty : s ≠ []) :
    EndsLine (c :: s) := by
  cases s with
  | nil => exact absurd rfl nonempty
  | cons d s =>
      intro last isLast
      exact ends last (by rwa [List.getLast?_cons_cons] at isLast)

theorem feed {s : List Char} (ends : EndsLine s) : EndsLine ('\n' :: s) := by
  cases s with
  | nil =>
      intro last isLast
      exact (Option.mem_some_iff.1 isLast).symm
  | cons d s => exact ends.cons_of_ne_nil (List.cons_ne_nil d s)

theorem tail {c : Char} {s : List Char} (ends : EndsLine (c :: s)) : EndsLine s := by
  cases s with
  | nil => exact endsLine_nil
  | cons d s =>
      intro last isLast
      exact ends last (by rwa [List.getLast?_cons_cons])

theorem right_of_append {a b : List Char} (ends : EndsLine (a ++ b)) : EndsLine b := by
  intro last isLast
  refine ends last ?_
  rw [List.getLast?_append, Option.mem_def.1 isLast]
  rfl

theorem append {a b : List Char} (first : EndsLine a) (second : EndsLine b) :
    EndsLine (a ++ b) := by
  intro last isLast
  rw [List.getLast?_append, Option.mem_def, Option.or_eq_some_iff] at isLast
  rcases isLast with inSecond | ⟨-, inFirst⟩
  · exact second last inSecond
  · exact first last inFirst

end EndsLine

theorem endsLine_append_feed (s : List Char) : EndsLine (s ++ ['\n']) := by
  intro last isLast
  rw [List.getLast?_concat, Option.mem_some_iff] at isLast
  exact isLast.symm

theorem linesWithEnds_eq_nil_iff {s : List Char} : linesWithEnds s = [] ↔ s = [] := by
  constructor
  · intro none
    rw [← flatten_linesWithEnds s, none, List.flatten_nil]
  · rintro rfl
    rfl

/-- Lines that have ended stay as they are. -/
theorem linesWithEnds_append {a : List Char} (ends : EndsLine a) (b : List Char) :
    linesWithEnds (a ++ b) = linesWithEnds a ++ linesWithEnds b := by
  induction a with
  | nil => rfl
  | cons c a ih =>
      rw [List.cons_append, linesWithEnds, linesWithEnds, ih ends.tail]
      cases feed : c == '\n' with
      | true => rfl
      | false =>
          cases lines : linesWithEnds a with
          | nil =>
              rw [linesWithEnds_eq_nil_iff] at lines
              subst lines
              rw [ends c rfl] at feed
              cases feed
          | cons line more => rfl

theorem not_mem_linesWithEnds_nil (s : List Char) : [] ∉ linesWithEnds s := by
  induction s with
  | nil => exact List.not_mem_nil
  | cons c s ih =>
      rw [linesWithEnds]
      split
      · rw [List.mem_cons, not_or]
        exact ⟨(List.cons_ne_nil _ _).symm, ih⟩
      · cases lines : linesWithEnds s with
        | nil => simp
        | cons first more =>
            rw [lines, List.mem_cons, not_or] at ih
            rw [List.mem_cons, not_or]
            exact ⟨(List.cons_ne_nil _ _).symm, ih.2⟩

/-- The lines before a line have their ends. -/
theorem endsLine_flatten {s line : List Char} {before after : List (List Char)}
    (split : linesWithEnds s = before ++ line :: after) : EndsLine before.flatten := by
  induction s generalizing before with
  | nil =>
      rw [linesWithEnds, eq_comm, List.append_eq_nil_iff] at split
      cases split.2
  | cons c s ih =>
      cases before with
      | nil => exact endsLine_nil
      | cons first before =>
          rw [linesWithEnds, List.cons_append] at split
          cases feed : c == '\n' with
          | true =>
              rw [feed, if_pos rfl, List.cons.injEq] at split
              rw [← split.1, List.flatten_cons]
              exact (ih split.2).feed
          | false =>
              rw [feed, if_neg Bool.false_ne_true] at split
              cases lines : linesWithEnds s with
              | nil =>
                  rw [lines, List.cons.injEq, eq_comm (a := []), List.append_eq_nil_iff] at split
                  cases split.2.2
              | cons second more =>
                  rw [lines, List.cons.injEq] at split
                  have kept : second ≠ [] := by
                    rintro rfl
                    exact not_mem_linesWithEnds_nil s (by rw [lines]; exact List.mem_cons_self)
                  have ended : EndsLine (second :: before).flatten :=
                    ih (by rw [lines, split.2, List.cons_append])
                  rw [← split.1, List.flatten_cons, List.cons_append]
                  exact ended.cons_of_ne_nil fun empty =>
                    kept (List.append_eq_nil_iff.1 empty).1

/-- The first line of a text and the lines after it are lines on their own, too. -/
theorem linesWithEnds_of_eq_cons {s line : List Char} {rest : List (List Char)}
    (lines : linesWithEnds s = line :: rest) :
    linesWithEnds line = [line] ∧ linesWithEnds rest.flatten = rest ∧
      (rest ≠ [] → EndsLine line) := by
  have whole : s = line ++ rest.flatten := by
    rw [← flatten_linesWithEnds s, lines, List.flatten_cons]
  have ended (more : rest ≠ []) : EndsLine line := by
    obtain ⟨next, rest, rfl⟩ := List.exists_cons_of_ne_nil more
    have split : linesWithEnds s = [line] ++ next :: rest := lines
    simpa using endsLine_flatten split
  have joined : linesWithEnds line ++ linesWithEnds rest.flatten = line :: rest := by
    by_cases more : rest = []
    · subst more
      rw [List.flatten_nil, List.append_nil] at whole
      subst whole
      rw [lines]
      rfl
    · rw [← linesWithEnds_append (ended more), ← whole, lines]
  have nonempty : linesWithEnds line ≠ [] := by
    rw [ne_eq, linesWithEnds_eq_nil_iff]
    rintro rfl
    exact not_mem_linesWithEnds_nil s (lines ▸ List.mem_cons_self)
  obtain ⟨first, more, split⟩ := List.exists_cons_of_ne_nil nonempty
  rw [split, List.cons_append, List.cons.injEq] at joined
  obtain ⟨rfl, later⟩ := joined
  -- a second line of the first line would be empty
  have single : more = [] := by
    have whole := flatten_linesWithEnds first
    rw [split, List.flatten_cons, List.append_right_eq_self, List.flatten_eq_nil_iff] at whole
    refine List.eq_nil_iff_forall_not_mem.2 fun other mem => ?_
    refine not_mem_linesWithEnds_nil first ?_
    rw [split, ← whole other mem]
    exact List.mem_cons_of_mem _ mem
  subst single
  exact ⟨split, later, ended⟩

/-! ## Where lines stand -/

/--
A text is a line between what stands before it and after it: it starts after a
line feed or where nothing is before it, its only line feed is its last
character, and it lacks that one only where nothing is after it.
-/
structure IsLine (before line after : List Char) : Prop where
  starts : EndsLine before
  nonempty : line ≠ []
  single : '\n' ∉ line.dropLast
  ends : after ≠ [] → EndsLine line

/-- A text is one line if it has no line feed but at its end. -/
theorem linesWithEnds_eq_singleton_iff {line : List Char} :
    linesWithEnds line = [line] ↔ line ≠ [] ∧ '\n' ∉ line.dropLast := by
  induction line with
  | nil => simp [linesWithEnds]
  | cons c rest ih =>
      cases rest with
      | nil => cases feed : c == '\n' <;> simp_all [linesWithEnds]
      | cons d rest =>
          rw [linesWithEnds, List.dropLast_cons_cons, List.mem_cons, not_or]
          cases feed : c == '\n' with
          | true =>
              rw [beq_iff_eq] at feed
              simp [feed]
          | false =>
              have other : '\n' ≠ c := fun same => ne_of_beq_false feed same.symm
              cases lines : linesWithEnds (d :: rest) with
              | nil => cases linesWithEnds_eq_nil_iff.1 lines
              | cons first more =>
                  rw [lines, List.cons.injEq] at ih
                  simp only [Bool.false_eq_true, if_false, List.cons.injEq, true_and, ih]
                  simp [other]

/-- The lines of a text, cut in two, are lines on their own, too. -/
theorem linesWithEnds_flatten {s : List Char} {before after : List (List Char)}
    (split : linesWithEnds s = before ++ after) :
    linesWithEnds before.flatten = before ∧ linesWithEnds after.flatten = after := by
  induction before generalizing s with
  | nil => exact ⟨rfl, by rw [← List.nil_append after, ← split, flatten_linesWithEnds]⟩
  | cons first before ih =>
      obtain ⟨single, later, ended⟩ := linesWithEnds_of_eq_cons split
      obtain ⟨own, rest⟩ := ih later
      refine ⟨?_, rest⟩
      by_cases last : before = []
      · rw [last, List.flatten_singleton, single]
      · have more : before ++ after ≠ [] := List.append_ne_nil_of_left_ne_nil last after
        rw [List.flatten_cons, linesWithEnds_append (ended more), single, own, List.singleton_append]

theorem eq_append_of_linesWithEnds_eq {s line : List Char} {before after : List (List Char)}
    (split : linesWithEnds s = before ++ line :: after) :
    s = before.flatten ++ line ++ after.flatten := by
  rw [← flatten_linesWithEnds s, split, List.flatten_append, List.flatten_cons, List.append_assoc]

/-- A line of a text stands as a line between the lines before it and after it. -/
theorem isLine_of_linesWithEnds_eq {s line : List Char} {before after : List (List Char)}
    (split : linesWithEnds s = before ++ line :: after) :
    IsLine before.flatten line after.flatten := by
  obtain ⟨own, -, ended⟩ := linesWithEnds_of_eq_cons (linesWithEnds_flatten split).2
  obtain ⟨nonempty, single⟩ := linesWithEnds_eq_singleton_iff.1 own
  refine ⟨endsLine_flatten split, nonempty, single, fun more => ended ?_⟩
  rintro rfl
  exact more List.flatten_nil

namespace IsLine

variable {before line after : List Char}

/-- A text is cut into lines around each of its lines. -/
theorem linesWithEnds_append (isLine : IsLine before line after) :
    linesWithEnds (before ++ line ++ after) =
      linesWithEnds before ++ line :: linesWithEnds after := by
  have own : linesWithEnds line = [line] :=
    linesWithEnds_eq_singleton_iff.2 ⟨isLine.nonempty, isLine.single⟩
  rw [List.append_assoc, Text.linesWithEnds_append isLine.starts]
  by_cases last : after = []
  · rw [last, List.append_nil, own]
    rfl
  · rw [Text.linesWithEnds_append (isLine.ends last), own, List.singleton_append]

/-- A line stays one after more lines. -/
theorem append_left {earlier : List Char} (isLine : IsLine before line after)
    (ends : EndsLine earlier) : IsLine (earlier ++ before) line after :=
  { isLine with starts := ends.append isLine.starts }

theorem of_append_left {earlier : List Char} (isLine : IsLine (earlier ++ before) line after) :
    IsLine before line after :=
  { isLine with starts := isLine.starts.right_of_append }

end IsLine

/-- The lines of a text are the texts that stand in it as a line. -/
theorem mem_linesWithEnds_iff {s line : List Char} :
    line ∈ linesWithEnds s ↔
      ∃ before after, s = before ++ line ++ after ∧ IsLine before line after := by
  constructor
  · intro mem
    obtain ⟨before, after, split⟩ := List.append_of_mem mem
    exact ⟨before.flatten, after.flatten, eq_append_of_linesWithEnds_eq split,
      isLine_of_linesWithEnds_eq split⟩
  · rintro ⟨before, after, rfl, isLine⟩
    rw [isLine.linesWithEnds_append]
    exact List.mem_append_right _ List.mem_cons_self

/-- The lines of a text after its first one are those that something stands before. -/
theorem mem_tail_linesWithEnds_iff {s line : List Char} :
    line ∈ (linesWithEnds s).tail ↔
      ∃ before after, s = before ++ line ++ after ∧ before ≠ [] ∧ IsLine before line after := by
  constructor
  · intro mem
    cases lines : linesWithEnds s with
    | nil =>
        rw [lines] at mem
        cases mem
    | cons first rest =>
        rw [lines, List.tail_cons] at mem
        obtain ⟨before, after, split⟩ := List.append_of_mem mem
        rw [split, ← List.cons_append] at lines
        refine ⟨(first :: before).flatten, after.flatten, eq_append_of_linesWithEnds_eq lines, ?_,
          isLine_of_linesWithEnds_eq lines⟩
        intro none
        rw [List.flatten_cons, List.append_eq_nil_iff] at none
        refine not_mem_linesWithEnds_nil s ?_
        rw [lines, none.1]
        exact List.mem_cons_self
  · rintro ⟨before, after, rfl, some, isLine⟩
    obtain ⟨first, more, split⟩ :=
      List.exists_cons_of_ne_nil (linesWithEnds_eq_nil_iff.not.2 some)
    rw [isLine.linesWithEnds_append, split]
    exact List.mem_append_right _ List.mem_cons_self

/-- Every line starts where the text starts or after a line feed. -/
theorem exists_of_mem_linesWithEnds {s line : List Char} (mem : line ∈ linesWithEnds s) :
    ∃ before after, s = before ++ (line ++ after) ∧ EndsLine before := by
  obtain ⟨before, after, whole, isLine⟩ := mem_linesWithEnds_iff.1 mem
  exact ⟨before, after, by rw [whole, List.append_assoc], isLine.starts⟩

theorem prefix_dropLineFeed (line : List Char) : dropLineFeed line <+: line := by
  rw [dropLineFeed]
  split
  · dsimp only
    split
    · exact (List.dropLast_prefix _).trans (List.dropLast_prefix line)
    · exact List.dropLast_prefix line
  · exact List.prefix_rfl

/-- A line stands in the text. -/
theorem infix_of_mem_lines {s line : List Char} (mem : line ∈ lines s) : line <:+: s := by
  obtain ⟨whole, isLine, rfl⟩ := List.mem_map.1 mem
  obtain ⟨before, after, rfl, -⟩ := exists_of_mem_linesWithEnds isLine
  exact (prefix_dropLineFeed whole).isInfix.trans
    ((List.prefix_append _ _).isInfix.trans (List.suffix_append _ _).isInfix)

theorem feed_not_mem_of_mem_lines {s line : List Char} (mem : line ∈ lines s) : '\n' ∉ line := by
  obtain ⟨whole, isLine, rfl⟩ := List.mem_map.1 mem
  obtain ⟨before, after, -, own⟩ := mem_linesWithEnds_iff.1 isLine
  rw [dropLineFeed]
  split
  · dsimp only
    split
    · exact fun mem => own.single (List.dropLast_subset _ mem)
    · exact own.single
  · rename_i noFeed
    intro mem
    obtain ⟨front, last, rfl⟩ := (List.eq_nil_or_concat whole).resolve_left own.nonempty
    have single := own.single
    rw [List.concat_eq_append, List.getLast?_concat, beq_iff_eq, Option.some_inj] at noFeed
    rw [List.concat_eq_append, List.dropLast_concat] at single
    rw [List.concat_eq_append, List.mem_append, List.mem_singleton] at mem
    rcases mem with mem | rfl
    · exact single mem
    · exact noFeed rfl

/-- A line stands between the line feeds around it when lines are joined. -/
theorem intercalate_append_cons (lines : List (List Char)) (line : List Char)
    (more : List (List Char)) :
    ['\n'].intercalate (lines ++ line :: more) =
      lines.flatMap (· ++ ['\n']) ++ (line ++ more.flatMap ('\n' :: ·)) := by
  induction lines with
  | nil =>
      rw [List.nil_append, List.flatMap_nil, List.nil_append]
      induction more generalizing line with
      | nil => rw [List.intercalate_singleton, List.flatMap_nil, List.append_nil]
      | cons next more ih =>
          rw [List.intercalate_cons_cons, ih, List.flatMap_cons, List.append_assoc,
            List.singleton_append, List.cons_append]
  | cons first lines ih =>
      rw [List.flatMap_cons, List.append_assoc, ← ih]
      cases lines <;> exact List.intercalate_cons_cons

/-! ## Texts of lines -/

/-- The text of some lines, each with its line feed. -/
def ofLines (lines : List (List Char)) : List Char :=
  lines.flatMap (· ++ ['\n'])

@[simp] theorem ofLines_nil : ofLines [] = [] :=
  rfl

theorem ofLines_cons (line : List Char) (lines : List (List Char)) :
    ofLines (line :: lines) = line ++ ['\n'] ++ ofLines lines :=
  List.flatMap_cons

theorem ofLines_append (lines more : List (List Char)) :
    ofLines (lines ++ more) = ofLines lines ++ ofLines more :=
  List.flatMap_append

theorem ofLines_eq_intercalate {lines : List (List Char)} (nonempty : lines ≠ []) :
    ofLines lines = ['\n'].intercalate lines ++ ['\n'] := by
  induction lines with
  | nil => exact absurd rfl nonempty
  | cons line lines ih =>
      cases lines with
      | nil => rw [ofLines_cons, ofLines_nil, List.append_nil, List.intercalate_singleton]
      | cons next lines =>
          rw [ofLines_cons, ih (List.cons_ne_nil next lines), List.intercalate_cons_cons,
            List.append_assoc _ _ ['\n']]

theorem linesWithEnds_ofLines {lines : List (List Char)} (whole : ∀ line ∈ lines, '\n' ∉ line) :
    linesWithEnds (ofLines lines) = lines.map (· ++ ['\n']) := by
  induction lines with
  | nil => rfl
  | cons line lines ih =>
      rw [List.forall_mem_cons] at whole
      have single : linesWithEnds (line ++ ['\n']) = [line ++ ['\n']] := by
        rw [linesWithEnds_eq_singleton_iff, List.dropLast_concat]
        exact ⟨List.concat_ne_nil _ _, whole.1⟩
      rw [ofLines_cons, linesWithEnds_append (endsLine_append_feed line), single, ih whole.2]
      rfl

theorem dropLineFeed_concat {line : List Char} (noReturn : '\r' ∉ line) :
    dropLineFeed (line ++ ['\n']) = line := by
  rw [dropLineFeed, List.getLast?_concat, if_pos (beq_self_eq_true _), List.dropLast_concat]
  refine if_neg fun last => noReturn ?_
  exact List.mem_of_getLast? (beq_iff_eq.1 last)

theorem lines_ofLines {lines : List (List Char)} (whole : ∀ line ∈ lines, '\n' ∉ line)
    (noReturn : ∀ line ∈ lines, '\r' ∉ line) : Text.lines (ofLines lines) = lines := by
  rw [Text.lines, linesWithEnds_ofLines whole, List.map_map]
  exact (List.map_congr_left fun line mem => dropLineFeed_concat (noReturn line mem)).trans
    (List.map_id lines)

/-- A text without carriage returns is that of its lines if the last one has ended. -/
theorem ofLines_lines {s : List Char} (ends : EndsLine s) (noReturn : '\r' ∉ s) :
    ofLines (lines s) = s := by
  have whole : ∀ line ∈ linesWithEnds s, dropLineFeed line ++ ['\n'] = line := by
    intro line mem
    obtain ⟨before, after, split, isLine⟩ := mem_linesWithEnds_iff.1 mem
    obtain ⟨front, last, rfl⟩ := (List.eq_nil_or_concat line).resolve_left isLine.nonempty
    have feed : last = '\n' := by
      refine (?_ : EndsLine (front.concat last)) last (by simp)
      by_cases behind : after = []
      · rw [split, behind, List.append_nil] at ends
        exact ends.right_of_append
      · exact isLine.ends behind
    rw [List.concat_eq_append, feed, dropLineFeed_concat]
    intro inside
    refine noReturn ?_
    rw [split]
    simp [inside]
  rw [ofLines, lines, List.flatMap_map, List.flatMap_def, List.map_congr_left whole, List.map_id',
    flatten_linesWithEnds]

end Text

end UiMarkdown
