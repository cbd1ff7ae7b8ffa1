import Mathlib.Data.List.Infix
import UiMarkdown.Markdown.Line
import UiMarkdown.Proofs.Text.Line
import UiMarkdown.Source.Fence

/-!
# Lines of a Markdown text

A line ends at a line feed, at a carriage return or at both, and going on in a
line leaves an end of it.  Where every carriage return has its line feed these
are the lines of the text in the other sense, too.
-/

namespace UiMarkdown

namespace Text

/-! ## Lines by their first characters -/

def consLine (c : Char) : List (List Char) → List (List Char)
  | [] => [[c]]
  | line :: more => (c :: line) :: more

theorem dropLineFeed_cons {c : Char} {line : List Char} (inner : c ≠ '\r') (nonempty : line ≠ []) :
    dropLineFeed (c :: line) = c :: dropLineFeed line := by
  obtain ⟨d, rest, rfl⟩ := List.exists_cons_of_ne_nil nonempty
  rw [dropLineFeed, dropLineFeed, List.getLast?_cons_cons]
  split
  · dsimp only
    rw [List.dropLast_cons_cons]
    cases body : (d :: rest).dropLast with
    | nil => simp [inner]
    | cons e more => rw [List.getLast?_cons_cons, List.dropLast_cons_cons]; split <;> rfl
  · rfl

@[simp] theorem lines_feed (s : List Char) : lines ('\n' :: s) = [] :: lines s := rfl

theorem lines_cons {c : Char} (s : List Char) (noFeed : c ≠ '\n') (noReturn : c ≠ '\r') :
    lines (c :: s) = consLine c (lines s) := by
  rw [lines, linesWithEnds, if_neg (by simpa using noFeed), lines]
  cases split : linesWithEnds s with
  | nil => simp [consLine, dropLineFeed, noFeed]
  | cons line more =>
      have nonempty : line ≠ [] := by
        rintro rfl
        exact not_mem_linesWithEnds_nil s (split ▸ List.mem_cons_self)
      rw [List.map_cons, List.map_cons, dropLineFeed_cons noReturn nonempty, consLine]

@[simp] theorem lines_return_feed (s : List Char) : lines ('\r' :: '\n' :: s) = [] :: lines s := rfl

end Text

namespace Markdown

/-! ## The lines of a text -/

/-- The lines of a text without their ends: a line feed, a carriage return or both. -/
def cutLines : List Char → List (List Char)
  | '\r' :: '\n' :: rest => [] :: cutLines rest
  | '\r' :: rest => [] :: cutLines rest
  | '\n' :: rest => [] :: cutLines rest
  | c :: rest => Text.consLine c (cutLines rest)
  | [] => []

/-- The mark that the null character is shown as; other characters are shown as they are. -/
def shown (c : Char) : Char :=
  if c == '\x00' then '\uFFFD' else c

theorem lines_unifyLineEnds (s : List Char) :
    Text.lines (unifyLineEnds s) = (cutLines s).map (·.map shown) := by
  fun_induction unifyLineEnds s with
  | case1 rest ih => rw [Text.lines_feed, ih, cutLines, List.map_cons, List.map_nil]
  | case2 rest other ih =>
      rw [Text.lines_feed, ih, cutLines, List.map_cons, List.map_nil]
      exact other
  | case3 c rest _ noReturn ih =>
      by_cases feed : c = '\n'
      · subst feed
        rw [if_neg (by decide), Text.lines_feed, ih, cutLines, List.map_cons, List.map_nil]
      · have still : shown c ≠ '\n' ∧ shown c ≠ '\r' := by
          rw [shown]
          split
          · decide
          · exact ⟨feed, noReturn⟩
        rw [← shown, Text.lines_cons _ still.1 still.2, ih, cutLines]
        · cases cutLines rest <;> rfl
        · rintro more rfl
          exact absurd rfl noReturn
        · exact noReturn
        · exact feed
  | case4 => rfl

/--
The parser reads the lines of a text with marks for null characters; a byte
order mark at the start of the text is no part of its first line.
-/
theorem textLines_eq (s : List Char) :
    textLines s =
      (cutLines (if s.head? == some '\uFEFF' then s.tail else s)).map (·.map shown) :=
  lines_unifyLineEnds _

theorem length_consLine (c : Char) (lines : List (List Char)) :
    lines.length ≤ (Text.consLine c lines).length := by
  cases lines
  · exact Nat.zero_le _
  · exact Nat.le_refl _

/-- The parser counts no more lines than there are. -/
theorem length_textLines_le (s : List Char) : (textLines s).length ≤ (cutLines s).length := by
  rw [textLines_eq, List.length_map]
  split
  · rename_i marked
    obtain ⟨rest, rfl⟩ : ∃ rest, s = '\uFEFF' :: rest := by
      cases s with
      | nil => cases marked
      | cons c rest => exact ⟨rest, by simpa using marked⟩
    rw [List.tail_cons, cutLines]
    · exact length_consLine _ _
    all_goals simp
  · exact Nat.le_refl _

/-- No line of a text has a line feed in it. -/
theorem feed_not_mem_of_mem_cutLines {s line : List Char} (mem : line ∈ cutLines s) :
    '\n' ∉ line := by
  fun_induction cutLines s generalizing line with
  | case1 rest ih | case2 rest _ ih | case3 rest ih =>
      rcases List.mem_cons.1 mem with rfl | mem
      · exact List.not_mem_nil
      · exact ih mem
  | case4 c rest _ _ noFeed ih =>
      have here {line : List Char} (inside : '\n' ∉ line) : '\n' ∉ c :: line := by
        rw [List.mem_cons, not_or]
        exact ⟨fun feed => noFeed feed.symm, inside⟩
      cases lines : cutLines rest with
      | nil =>
          rw [lines, Text.consLine, List.mem_singleton] at mem
          exact mem ▸ here List.not_mem_nil
      | cons first more =>
          rw [lines, Text.consLine, List.mem_cons] at mem
          rcases mem with rfl | mem
          · exact here (ih (lines ▸ List.mem_cons_self))
          · exact ih (lines ▸ List.mem_cons_of_mem _ mem)
  | case5 => cases mem

theorem feed_not_mem_of_mem_textLines {s line : List Char} (mem : line ∈ textLines s) :
    '\n' ∉ line := by
  rw [textLines_eq] at mem
  obtain ⟨line, isLine, rfl⟩ := List.mem_map.1 mem
  intro feed
  obtain ⟨c, isChar, same⟩ := List.mem_map.1 feed
  rw [shown] at same
  split at same
  · exact absurd same (by decide)
  · exact feed_not_mem_of_mem_cutLines isLine (same ▸ isChar)

/-! ## Lines of adjoining texts -/

theorem cutLines_ne_nil {s : List Char} (nonempty : s ≠ []) : cutLines s ≠ [] := by
  fun_cases cutLines s with
  | case1 | case2 | case3 => exact List.cons_ne_nil _ _
  | case4 c rest => cases cutLines rest <;> exact List.cons_ne_nil _ _
  | case5 => exact absurd rfl nonempty

theorem cutLines_append {a : List Char} (ends : Text.EndsLine a) (b : List Char) :
    cutLines (a ++ b) = cutLines a ++ cutLines b := by
  fun_induction cutLines a with
  | case1 rest ih =>
      rw [List.cons_append, List.cons_append, cutLines, ih ends.tail.tail, List.cons_append]
  | case2 rest noFeed ih =>
      rw [List.cons_append, cutLines, ih ends.tail, List.cons_append]
      intro after behind
      cases rest with
      | nil => exact absurd (ends '\r' rfl) (by decide)
      | cons c rest =>
          rw [List.cons_append, List.cons.injEq] at behind
          exact noFeed rest (by rw [behind.1])
  | case3 rest ih => rw [List.cons_append, cutLines, ih ends.tail, List.cons_append]
  | case4 c rest noBoth noReturn noFeed ih =>
      have more : rest ≠ [] := by
        rintro rfl
        exact noFeed (ends c rfl)
      rw [List.cons_append, cutLines, ih ends.tail]
      · cases lines : cutLines rest with
        | nil => exact absurd lines (cutLines_ne_nil more)
        | cons line more => rfl
      · exact fun after same _ => noReturn same
      · exact noReturn
      · exact noFeed
  | case5 => rfl

def laterLines (s : List Char) : List (List Char) :=
  (cutLines s).map (·.map shown)

theorem laterLines_append {a : List Char} (ends : Text.EndsLine a) (b : List Char) :
    laterLines (a ++ b) = laterLines a ++ laterLines b := by
  rw [laterLines, cutLines_append ends, List.map_append]
  rfl

/-- A byte order mark counts at the start of the whole text only. -/
theorem textLines_append {a : List Char} (ends : Text.EndsLine a) (nonempty : a ≠ [])
    (b : List Char) : textLines (a ++ b) = textLines a ++ laterLines b := by
  obtain ⟨c, a, rfl⟩ := List.exists_cons_of_ne_nil nonempty
  rw [textLines_eq, textLines_eq, List.cons_append, List.head?_cons, List.head?_cons]
  split
  · exact laterLines_append ends.tail b
  · exact laterLines_append ends b

theorem subset_of_mem_cutLines {s line : List Char} (mem : line ∈ cutLines s) : line ⊆ s := by
  fun_induction cutLines s generalizing line with
  | case1 rest ih =>
      rcases List.mem_cons.1 mem with rfl | mem
      · exact List.nil_subset _
      · exact List.subset_cons_of_subset _ (List.subset_cons_of_subset _ (ih mem))
  | case2 rest _ ih | case3 rest ih =>
      rcases List.mem_cons.1 mem with rfl | mem
      · exact List.nil_subset _
      · exact List.subset_cons_of_subset _ (ih mem)
  | case4 c rest _ _ _ ih =>
      cases lines : cutLines rest with
      | nil =>
          rw [lines, Text.consLine, List.mem_singleton] at mem
          exact mem ▸ List.cons_subset_cons c (List.nil_subset rest)
      | cons first more =>
          rw [lines, Text.consLine, List.mem_cons] at mem
          rcases mem with rfl | mem
          · exact List.cons_subset_cons c (ih (lines ▸ List.mem_cons_self))
          · exact List.subset_cons_of_subset _ (ih (lines ▸ List.mem_cons_of_mem _ mem))
  | case5 => cases mem

/-- Lines begin with the characters before the first end of a line. -/
theorem cutLines_append_of_solid {a : List Char} (solid : ∀ c ∈ a, c ≠ '\r' ∧ c ≠ '\n')
    (nonempty : a ≠ []) (b : List Char) :
    ∃ first more, cutLines (a ++ b) = (a ++ first) :: more ∧ first ⊆ b := by
  induction a with
  | nil => exact absurd rfl nonempty
  | cons c a ih =>
      obtain ⟨⟨noReturn, noFeed⟩, solid⟩ := List.forall_mem_cons.1 solid
      have lines : cutLines (c :: a ++ b) = Text.consLine c (cutLines (a ++ b)) := by
        rw [List.cons_append, cutLines]
        · exact fun after same _ => noReturn same
        · exact noReturn
        · exact noFeed
      rw [lines]
      by_cases last : a = []
      · subst last
        rw [List.nil_append]
        cases later : cutLines b with
        | nil => exact ⟨[], [], rfl, List.nil_subset _⟩
        | cons first more =>
            exact ⟨first, more, rfl, subset_of_mem_cutLines (later ▸ List.mem_cons_self)⟩
      · obtain ⟨first, more, rest, inside⟩ := ih solid last
        rw [rest]
        exact ⟨first, more, rfl, inside⟩

/-! ## Places in a line -/

namespace Line

theorem suffix_body (line : Line) : line.body <:+ line.left :=
  List.dropWhile_suffix _

theorem suffix_skip (count : Nat) (line : Line) : (line.skip count).left <:+ line.left := by
  fun_induction skip count line with
  | case1 line => exact List.suffix_rfl
  | case2 => exact List.suffix_rfl
  | case3 line count c rest left width ih =>
      rw [left]
      exact ih.trans (List.suffix_cons c rest)

theorem suffix_skipColumns (count : Nat) (line : Line) :
    (line.skipColumns count).left <:+ line.left := by
  have inside (count : Nat) (left : List Char) (column : Nat) (inTab : Bool) :
      (skipColumns.go count left column inTab).left <:+ left := by
    fun_induction skipColumns.go count left column inTab with
    | case1 => exact List.suffix_rfl
    | case2 => exact List.suffix_rfl
    | case3 => exact List.suffix_rfl
    | case4 => rename_i ih; exact ih.trans (List.suffix_cons _ _)
    | case5 => rename_i ih; exact ih.trans (List.suffix_cons _ _)
  exact inside count line.left line.column line.inTab

theorem suffix_skipOptional (line : Line) : line.skipOptional.left <:+ line.left := by
  rw [skipOptional]
  split
  · exact line.suffix_skipColumns 1
  · exact List.suffix_rfl

theorem left_toEnd (line : Line) : line.toEnd.left = [] := by
  have all (count : Nat) (line : Line) (enough : line.left.length ≤ count) :
      (line.skip count).left = [] := by
    fun_induction skip count line with
    | case1 line => exact List.length_eq_zero_iff.1 (Nat.le_zero.1 enough)
    | case2 _ _ left => exact left
    | case3 line count c rest left width ih =>
        refine ih ?_
        rw [left, List.length_cons] at enough
        exact Nat.le_of_succ_le_succ enough
  exact all _ line (Nat.le_refl _)

theorem isBlank_toEnd (line : Line) : line.toEnd.isBlank = true := by
  rw [isBlank, body, left_toEnd]
  rfl

theorem body_of_isBlank {line : Line} (blank : line.isBlank = true) : line.body = [] :=
  List.isEmpty_iff.1 blank

/-- What is left of a tab is written as spaces, so the text at a place ends no line either. -/
theorem feed_not_mem_text {line : Line} (inside : '\n' ∉ line.left) : '\n' ∉ line.text := by
  rw [text]
  split
  · rw [List.mem_append, not_or]
    exact ⟨fun mem => absurd (List.eq_of_mem_replicate mem) (by decide),
      fun mem => inside (List.mem_of_mem_tail mem)⟩
  · exact inside

end Line

end Markdown

/-! ## Line feeds after carriage returns -/

namespace Text

/-- Whether a line feed follows every carriage return of a text. -/
def isPaired : List Char → Bool
  | '\r' :: '\n' :: rest => isPaired rest
  | '\r' :: _ => false
  | _ :: rest => isPaired rest
  | [] => true

theorem isPaired_append {a b : List Char} (first : isPaired a) (later : isPaired b) :
    isPaired (a ++ b) := by
  fun_induction isPaired a with
  | case1 rest ih => exact ih first
  | case2 => cases first
  | case3 c rest _ noReturn ih =>
      rw [List.cons_append, isPaired]
      · exact ih first
      · rintro more rfl
        exact absurd rfl noReturn
      · exact noReturn
  | case4 => exact later

theorem isPaired_of_mem_linesWithEnds {s line : List Char} (paired : isPaired s)
    (mem : line ∈ linesWithEnds s) : isPaired line := by
  fun_induction isPaired s generalizing line with
  | case1 rest ih =>
      rcases List.mem_cons.1 mem with rfl | mem
      · rfl
      · exact ih paired mem
  | case2 => cases paired
  | case3 c rest _ noReturn ih =>
      have here {line : List Char} (later : isPaired line) : isPaired (c :: line) := by
        rw [isPaired]
        · exact later
        · rintro more rfl
          exact absurd rfl noReturn
        · exact noReturn
      rw [linesWithEnds] at mem
      split at mem
      · rcases List.mem_cons.1 mem with rfl | mem
        · rfl
        · exact ih paired mem
      · cases lines : linesWithEnds rest with
        | nil =>
            rw [lines, List.mem_singleton] at mem
            exact mem ▸ here rfl
        | cons first more =>
            rw [lines, List.mem_cons] at mem
            rcases mem with rfl | mem
            · exact here (ih paired (lines ▸ List.mem_cons_self))
            · exact ih paired (lines ▸ List.mem_cons_of_mem _ mem)
  | case4 => cases mem

end Text

namespace Markdown

/-- Where every carriage return has its line feed, only line feeds end lines. -/
theorem cutLines_of_isPaired {s : List Char} (paired : Text.isPaired s) :
    cutLines s = Text.lines s := by
  fun_induction Text.isPaired s with
  | case1 rest ih => rw [cutLines, Text.lines_return_feed, ih paired]
  | case2 => cases paired
  | case3 c rest _ noReturn ih =>
      by_cases feed : c = '\n'
      · subst feed
        rw [cutLines, Text.lines_feed, ih paired]
      · rw [cutLines, Text.lines_cons rest feed noReturn, ih paired]
        · rintro more rfl
          exact absurd rfl noReturn
        · exact noReturn
        · exact feed
  | case4 => rfl

end Markdown

namespace Fence

theorem mem_of_mem_separateLines {opened : Option Fence} {afterBlank : Bool}
    {lines : List (List Char)} {line : List Char}
    (mem : line ∈ separateLines opened afterBlank lines) : line = ['\n'] ∨ line ∈ lines := by
  induction lines generalizing opened afterBlank with
  | nil => exact .inr mem
  | cons first rest ih =>
      have later {opened : Option Fence} {afterBlank : Bool}
          (mem : line ∈ first :: separateLines opened afterBlank rest) :
          line = ['\n'] ∨ line ∈ first :: rest := by
        rcases List.mem_cons.1 mem with rfl | mem
        · exact .inr List.mem_cons_self
        · exact (ih mem).imp_right (List.mem_cons_of_mem first)
      rw [separateLines] at mem
      split at mem
      · rcases List.mem_cons.1 mem with rfl | mem
        · exact .inl rfl
        · exact later mem
      · exact later mem

/-- Putting blank lines before fences leaves no carriage return without its line feed. -/
theorem isPaired_separate {s : List Char} (paired : Text.isPaired s) :
    Text.isPaired (separate s) := by
  have joined (lines : List (List Char)) (all : ∀ line ∈ lines, Text.isPaired line) :
      Text.isPaired lines.flatten := by
    induction lines with
    | nil => rfl
    | cons line more ih =>
        obtain ⟨here, later⟩ := List.forall_mem_cons.1 all
        exact Text.isPaired_append here (ih later)
  refine joined _ fun line mem => ?_
  rcases mem_of_mem_separateLines mem with rfl | mem
  · rfl
  · exact Text.isPaired_of_mem_linesWithEnds paired mem

end Fence

end UiMarkdown
