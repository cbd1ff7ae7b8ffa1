import UiMarkdown.Proofs.Text.Line
import UiMarkdown.Proofs.Text.Trim
import UiMarkdown.Source.Frontmatter

/-!
# Where frontmatter stands

A source with frontmatter is an opening line, the metadata, a closing line and
the body, and the closing line is the first one.  Splitting finds these four
and nothing else: a source that does not open so, or in which no later line
closes, is all body.
-/

namespace UiMarkdown

namespace Frontmatter

def openings : List (List Char) :=
  [delimiter ++ ['\n'], delimiter ++ ['\r', '\n']]

/-- A line closes frontmatter: only line ends follow its three hyphens or points. -/
def Closes (line : List Char) : Prop :=
  ∃ mark ∈ [delimiter, dots], ∃ ending, line = mark ++ ending ∧
    ∀ c ∈ ending, c = '\r' ∨ c = '\n'

def Unclosed (text : List Char) : Prop :=
  ∀ before line after, text = before ++ line ++ after → Text.IsLine before line after →
    ¬ Closes line

/--
A source is its metadata and its body between the lines that frontmatter has.
The metadata ends where the first closing line starts.
-/
structure Framed (source yaml body : List Char) : Prop where
  whole : ∃ opening ∈ openings, ∃ closing, Closes closing ∧
    source = opening ++ yaml ++ closing ++ body ∧ Text.IsLine (opening ++ yaml) closing body
  unclosed : Unclosed yaml

/-- A source does not open frontmatter, or no line after the first one closes it. -/
def Bare (source : List Char) : Prop :=
  (∀ opening ∈ openings, ¬ opening <+: source) ∨
    ∀ before line after, source = before ++ line ++ after → before ≠ [] →
      Text.IsLine before line after → ¬ Closes line

/-! ## Lines -/

theorem isClosing_iff {line : List Char} : isClosing line = true ↔ Closes line := by
  rw [isClosing, Bool.or_eq_true, beq_iff_eq, beq_iff_eq]
  constructor
  · intro same
    obtain ⟨ending, whole, ends⟩ :=
      Text.exists_append_dropEnd (fun c => c == '\r' || c == '\n') line
    refine ⟨Text.dropLineEnds line, by simpa using same, ending, whole, fun c mem => ?_⟩
    simpa using List.all_eq_true.1 ends c mem
  · rintro ⟨mark, isMark, ending, rfl, ends⟩
    have dropped : Text.dropLineEnds (mark ++ ending) = Text.dropLineEnds mark := by
      refine Text.dropEnd_append (List.all_eq_true.2 fun c mem => ?_)
      simpa using ends c mem
    rw [dropped]
    rcases List.mem_pair.1 isMark with rfl | rfl
    · exact .inl rfl
    · exact .inr rfl

theorem isClosing_eq_false_iff {line : List Char} : isClosing line = false ↔ ¬ Closes line := by
  rw [← isClosing_iff, Bool.not_eq_true]

theorem unclosed_iff {text : List Char} :
    Unclosed text ↔ ∀ line ∈ Text.linesWithEnds text, isClosing line = false := by
  simp only [isClosing_eq_false_iff, Text.mem_linesWithEnds_iff]
  constructor
  · rintro unclosed line ⟨before, after, whole, isLine⟩
    exact unclosed before line after whole isLine
  · intro unclosed before line after whole isLine
    exact unclosed line ⟨before, after, whole, isLine⟩

/-- An opening line is a line wherever a source starts with it. -/
theorem isLine_of_mem_openings {opening : List Char} (isOpening : opening ∈ openings)
    (rest : List Char) : Text.IsLine [] opening rest := by
  rcases List.mem_pair.1 isOpening with rfl | rfl
  · exact ⟨Text.endsLine_nil, by decide, by decide, fun _ => Text.endsLine_append_feed delimiter⟩
  · exact ⟨Text.endsLine_nil, by decide, by decide,
      fun _ => Text.endsLine_append_feed (delimiter ++ ['\r'])⟩

theorem endsLine_of_mem_openings {opening : List Char} (isOpening : opening ∈ openings) :
    Text.EndsLine opening :=
  (isLine_of_mem_openings isOpening ['\n']).ends (List.cons_ne_nil _ _)

/-! ## Searches -/

theorem afterOpening?_eq_some_iff {source rest : List Char} :
    afterOpening? source = some rest ↔ ∃ opening ∈ openings, source = opening ++ rest := by
  constructor
  · intro found
    rw [afterOpening?] at found
    split at found
    · rename_i first
      cases found
      exact ⟨_, List.mem_cons_self, Text.eq_append_of_isPrefixOf? first⟩
    · exact ⟨_, List.mem_cons_of_mem _ List.mem_cons_self, Text.eq_append_of_isPrefixOf? found⟩
  · rintro ⟨opening, isOpening, rfl⟩
    rcases List.mem_pair.1 isOpening with rfl | rfl <;> rfl

theorem afterOpening?_eq_none_iff {source : List Char} :
    afterOpening? source = none ↔ ∀ opening ∈ openings, ¬ opening <+: source := by
  constructor
  · rintro failed opening isOpening ⟨rest, whole⟩
    rw [afterOpening?_eq_some_iff.2 ⟨opening, isOpening, whole.symm⟩] at failed
    cases failed
  · intro absent
    refine Option.eq_none_iff_forall_ne_some.2 fun rest found => ?_
    obtain ⟨opening, isOpening, whole⟩ := afterOpening?_eq_some_iff.1 found
    exact absent opening isOpening ⟨rest, whole.symm⟩

/-- The lines before the first closing line are cut off. -/
theorem cutLines?_append {before : List (List Char)} {closing : List Char}
    (unclosed : ∀ line ∈ before, isClosing line = false) (closes : isClosing closing = true)
    (after : List (List Char)) :
    cutLines? (before ++ closing :: after) = some (before, after) := by
  induction before with
  | nil => rw [List.nil_append, cutLines?, if_pos closes]
  | cons first before ih =>
      rw [List.forall_mem_cons] at unclosed
      rw [List.cons_append, cutLines?, unclosed.1, ih unclosed.2]
      rfl

/-- Lines are cut at the first closing one. -/
theorem cutLines?_eq_some_iff {lines before after : List (List Char)} :
    cutLines? lines = some (before, after) ↔ ∃ closing, lines = before ++ closing :: after ∧
      isClosing closing = true ∧ ∀ line ∈ before, isClosing line = false := by
  constructor
  · intro cut
    induction lines generalizing before with
    | nil => cases cut
    | cons line rest ih =>
        rw [cutLines?] at cut
        split at cut
        · rename_i closes
          cases cut
          exact ⟨line, rfl, closes, List.forall_mem_nil _⟩
        · rename_i other
          obtain ⟨⟨before', after'⟩, cut', same⟩ := Option.map_eq_some_iff.1 cut
          cases same
          obtain ⟨closing, rfl, closes, unclosed⟩ := ih cut'
          exact ⟨closing, rfl, closes,
            List.forall_mem_cons.2 ⟨Bool.of_not_eq_true other, unclosed⟩⟩
  · rintro ⟨closing, rfl, closes, unclosed⟩
    exact cutLines?_append unclosed closes after

theorem cutLines?_eq_none_iff {lines : List (List Char)} :
    cutLines? lines = none ↔ ∀ line ∈ lines, isClosing line = false := by
  induction lines with
  | nil => simp [cutLines?]
  | cons line rest ih =>
      rw [cutLines?, List.forall_mem_cons, ← ih]
      cases isClosing line <;> simp

/-! ## Sources -/

/-- What is split off as frontmatter is what the first closing line ends. -/
theorem split_eq_some_iff {source yaml body : List Char} :
    split source = (some yaml, body) ↔ Framed source yaml body := by
  constructor
  · intro found
    rw [split] at found
    split at found
    · rename_i before after searched
      cases found
      obtain ⟨rest, opened, cut⟩ := Option.bind_eq_some_iff.1 searched
      obtain ⟨opening, isOpening, rfl⟩ := afterOpening?_eq_some_iff.1 opened
      obtain ⟨closing, lines, closes, unclosed⟩ := cutLines?_eq_some_iff.1 cut
      have isLine := Text.isLine_of_linesWithEnds_eq lines
      refine ⟨⟨opening, isOpening, closing, isClosing_iff.1 closes, ?_,
        isLine.append_left (endsLine_of_mem_openings isOpening)⟩, ?_⟩
      · rw [Text.eq_append_of_linesWithEnds_eq lines]
        simp only [List.append_assoc]
      · -- the lines before the cut are the lines of the metadata, since each has its end
        rw [unclosed_iff, (Text.linesWithEnds_flatten lines).1]
        exact unclosed
    · cases found
  · rintro ⟨⟨opening, isOpening, closing, closes, whole, isLine⟩, unclosed⟩
    have opened : afterOpening? source = some (yaml ++ closing ++ body) := by
      refine afterOpening?_eq_some_iff.2 ⟨opening, isOpening, ?_⟩
      simp only [whole, List.append_assoc]
    have cut : cutLines? (Text.linesWithEnds (yaml ++ closing ++ body)) =
        some (Text.linesWithEnds yaml, Text.linesWithEnds body) :=
      cutLines?_eq_some_iff.2 ⟨closing, isLine.of_append_left.linesWithEnds_append,
        isClosing_iff.2 closes, unclosed_iff.1 unclosed⟩
    rw [split, opened, Option.bind_some, cut]
    simp only [Text.flatten_linesWithEnds]

/-- After an opening line, a source has no frontmatter exactly if no later line closes. -/
theorem cutLines?_eq_none_iff_of_opening {opening rest : List Char}
    (isOpening : opening ∈ openings) :
    cutLines? (Text.linesWithEnds rest) = none ↔
      ∀ before line after, opening ++ rest = before ++ line ++ after → before ≠ [] →
        Text.IsLine before line after → ¬ Closes line := by
  have lines : (Text.linesWithEnds (opening ++ rest)).tail = Text.linesWithEnds rest :=
    congrArg List.tail (isLine_of_mem_openings isOpening rest).linesWithEnds_append
  rw [cutLines?_eq_none_iff, ← lines]
  simp only [isClosing_eq_false_iff, Text.mem_tail_linesWithEnds_iff]
  constructor
  · intro unclosed before line after whole later isLine
    exact unclosed line ⟨before, after, whole, later, isLine⟩
  · rintro unclosed line ⟨before, after, whole, later, isLine⟩
    exact unclosed before line after whole later isLine

/-- A source without frontmatter is all body. -/
theorem split_eq_none_iff {source body : List Char} :
    split source = (none, body) ↔ body = source ∧ Bare source := by
  have searched : (afterOpening? source).bind (fun rest => cutLines? (Text.linesWithEnds rest)) =
      none ↔ Bare source := by
    rw [Bare, ← afterOpening?_eq_none_iff]
    cases opened : afterOpening? source with
    | none => simp
    | some rest =>
        obtain ⟨opening, isOpening, rfl⟩ := afterOpening?_eq_some_iff.1 opened
        rw [Option.bind_some, cutLines?_eq_none_iff_of_opening isOpening]
        simp
  rw [← searched, split]
  split
  · rename_i cut
    simp [cut]
  · rename_i cut
    simp [cut, eq_comm]

/--
Splitting a source loses nothing and misses nothing.  It gives metadata and a
body exactly if they make up the source with an opening line before them and
the first closing line between them, and it gives the source as the body
exactly if there are no such lines.
-/
theorem split_iff_framed (source : List Char) :
    (∀ yaml body, split source = (some yaml, body) ↔ Framed source yaml body) ∧
      ∀ body, split source = (none, body) ↔ body = source ∧ Bare source :=
  ⟨fun _ _ => split_eq_some_iff, fun _ => split_eq_none_iff⟩

example : split "---\r\na: 1\n---b\n...\r".toList = (some "a: 1\n---b\n".toList, []) := by decide

end Frontmatter

end UiMarkdown
