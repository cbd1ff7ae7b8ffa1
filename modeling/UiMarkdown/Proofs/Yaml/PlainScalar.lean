import UiMarkdown.Proofs.Yaml.Writer
import UiMarkdown.Yaml.Token.Lexer

/-!
# Reading plain scalars

A text that is written plain on a line is read as itself: a word ends at white
space or at a colon before it, and between two words there are only spaces.
-/

namespace UiMarkdown

namespace Yaml

def isWhite (c : Char) : Bool :=
  Text.isSpaceOrTab c || isBreak c

/-- A text that a plain scalar on a line may have. -/
structure IsPlain (s : List Char) : Prop where
  nonempty : s ≠ []
  printable : s.all Style.isPrintable = true
  unbroken : s.any isBreak = false
  unmarked : Style.hasMark s = false
  starts : s.head? ≠ some ' '
  ends : s.getLast? ≠ some ' '

instance (s : List Char) : Decidable (IsPlain s) :=
  decidable_of_iff (s ≠ [] ∧ s.all Style.isPrintable = true ∧ s.any isBreak = false ∧
      Style.hasMark s = false ∧ s.head? ≠ some ' ' ∧ s.getLast? ≠ some ' ')
    ⟨fun ⟨nonempty, printable, unbroken, unmarked, starts, ends⟩ =>
        ⟨nonempty, printable, unbroken, unmarked, starts, ends⟩,
      fun plain => ⟨plain.nonempty, plain.printable, plain.unbroken, plain.unmarked, plain.starts,
        plain.ends⟩⟩

theorem IsPlain.of_style {s : List Char} (style : Style.ofText s = .plain) : IsPlain s := by
  have plain := isPlain_of_style style
  simp only [Style.isPlain, Style.needsEscapes, Bool.and_eq_true, Bool.not_eq_true',
    Bool.or_eq_false_iff] at plain
  obtain ⟨⟨⟨⟨⟨reads, printable, -⟩, unbroken⟩, unmarked⟩, starts⟩, ends⟩ := plain
  refine ⟨?_, ?_, unbroken, unmarked, ?_, ?_⟩
  · rintro rfl
    cases reads
  · rw [List.all_eq_not_any_not, printable]
    rfl
  · intro space
    rw [space] at starts
    cases starts
  · intro space
    rw [space] at ends
    cases ends

namespace IsPlain

variable {s : List Char} {c : Char}

theorem isPrintable_of_mem (plain : IsPlain s) (mem : c ∈ s) : Style.isPrintable c = true :=
  List.all_eq_true.1 plain.printable c mem

theorem isBreak_of_mem (plain : IsPlain s) (mem : c ∈ s) : isBreak c = false :=
  Bool.not_eq_true _ ▸ List.any_eq_false.1 plain.unbroken c mem

theorem isSpaceOrTab_of_mem (plain : IsPlain s) (mem : c ∈ s) (other : c ≠ ' ') :
    Text.isSpaceOrTab c = false := by
  rw [Text.isSpaceOrTab, Bool.or_eq_false_iff, beq_eq_false_iff_ne, beq_eq_false_iff_ne]
  refine ⟨other, ?_⟩
  rintro rfl
  exact absurd (plain.isPrintable_of_mem mem) (by decide)

end IsPlain

/-- A text from the start of one of its words on. -/
structure IsWords (s : List Char) : Prop where
  nonempty : s ≠ []
  solid : ∀ c ∈ s, c = ' ' ∨ isWhite c = false
  unmarked : Style.hasInnerMark true s = false
  starts : s.head? ≠ some ' '
  ends : s.getLast? ≠ some ' '

theorem hasInnerMark_cons_eq_false {c : Char} {s : List Char} {after : Bool} :
    Style.hasInnerMark after (c :: s) = false ↔
      ((c == ':' && Style.endsWord s) = false ∧ (c == '#' && after) = false) ∧
        Style.hasInnerMark (Style.separates c) s = false := by
  rw [Style.hasInnerMark, Bool.or_eq_false_iff, Bool.or_eq_false_iff]

theorem IsPlain.isWords {s : List Char} (plain : IsPlain s) : IsWords s where
  nonempty := plain.nonempty
  starts := plain.starts
  ends := plain.ends
  solid c mem := by
    by_cases space : c = ' '
    · exact .inl space
    · right
      rw [isWhite, plain.isSpaceOrTab_of_mem mem space, plain.isBreak_of_mem mem]
      rfl
  unmarked := by
    have unmarked := plain.unmarked
    obtain ⟨c, s, rfl⟩ := List.exists_cons_of_ne_nil plain.nonempty
    simp only [Style.hasMark, Bool.or_eq_false_iff] at unmarked
    obtain ⟨⟨⟨-, mark⟩, lone⟩, inner⟩ := unmarked
    rw [hasInnerMark_cons_eq_false]
    refine ⟨⟨?_, ?_⟩, inner⟩
    · rw [Bool.and_eq_false_iff, beq_eq_false_iff_ne]
      by_cases colon : c = ':'
      · rw [colon] at lone
        exact .inr (by simpa using lone)
      · exact .inl colon
    · rw [Bool.and_true, beq_eq_false_iff_ne]
      rintro rfl
      cases mark

/-- A word of a text that goes on with `s`. -/
structure IsWord (w s : List Char) : Prop where
  nonempty : w ≠ []
  solid : ∀ c ∈ w, isWhite c = false
  unmarked : Style.hasInnerMark true (w ++ s) = false

theorem exists_spaces (s : List Char) :
    ∃ n rest, s = List.replicate n ' ' ++ rest ∧ rest.head? ≠ some ' ' := by
  induction s with
  | nil => exact ⟨0, [], rfl, by simp⟩
  | cons c s ih =>
      by_cases space : c = ' '
      · obtain ⟨n, rest, split, solid⟩ := ih
        exact ⟨n + 1, rest, by rw [space, split, List.replicate_succ, List.cons_append], solid⟩
      · exact ⟨0, c :: s, rfl, by simpa using space⟩

theorem hasInnerMark_of_append {a s : List Char} {after : Bool}
    (unmarked : Style.hasInnerMark after (a ++ ' ' :: s) = false) :
    Style.hasInnerMark true s = false := by
  induction a generalizing after with
  | nil => exact (hasInnerMark_cons_eq_false.1 unmarked).2
  | cons c a ih => exact ih (hasInnerMark_cons_eq_false.1 unmarked).2

/-- The first word of a text is all of it, or there are spaces and more words behind it. -/
theorem IsWords.exists_word {s : List Char} (words : IsWords s) :
    IsWord s [] ∨ ∃ w n more, s = w ++ (List.replicate (n + 1) ' ' ++ more) ∧
      IsWord w (List.replicate (n + 1) ' ' ++ more) ∧ IsWords more := by
  obtain ⟨nonempty, solid, unmarked, starts, ends⟩ := words
  by_cases space : ' ' ∈ s
  · obtain ⟨w, rest, rfl, first⟩ := List.eq_append_cons_of_mem space
    obtain ⟨n, more, rfl, later⟩ := exists_spaces rest
    rw [← List.cons_append, ← List.replicate_succ] at *
    have filled : more ≠ [] := by
      rintro rfl
      rw [List.append_nil, List.getLast?_append_of_ne_nil _ (by simp),
        List.getLast?_replicate] at ends
      exact ends rfl
    refine .inr ⟨w, n, more, rfl, ⟨?_, ?_, unmarked⟩, filled, ?_, ?_, later, ?_⟩
    · rintro rfl
      exact starts rfl
    · intro c mem
      refine (solid c (List.mem_append_left _ mem)).resolve_left ?_
      rintro rfl
      exact first mem
    · exact fun c mem => solid c (by simp [mem])
    · rw [List.replicate_succ', List.append_assoc, ← List.append_assoc] at unmarked
      exact hasInnerMark_of_append unmarked
    · rwa [← List.append_assoc, List.getLast?_append_of_ne_nil _ filled] at ends
  · refine .inl ⟨nonempty, fun c mem => (solid c mem).resolve_left ?_, by rwa [List.append_nil]⟩
    rintro rfl
    exact space mem

namespace Cursor

/-- Whether a word of a plain scalar ends where such a text is left. -/
def EndsWord (rest : List Char) : Prop :=
  (∀ c ∈ rest.head?, isWhite c = true) ∨
    ∃ more, rest = ':' :: more ∧ ∀ c ∈ more.head?, isWhite c = true

theorem isGap_iff {rest : List Char} (index line column : Nat) :
    isGap ⟨rest, index, line, column⟩ = true ↔ ∀ c ∈ rest.head?, isWhite c = true := by
  cases rest with
  | nil => simp [isGap, peek?]
  | cons c rest => simp [isGap, peek?, isWhite]

theorem isGap_of_inside {s : List Char} (inside : Style.endsWord s = false) (c : Char)
    (rest : List Char) (index line column : Nat) :
    isGap ⟨c :: (s ++ rest), index, line, column⟩ 1 = false := by
  cases s with
  | nil => cases inside
  | cons d s =>
      simp only [Style.endsWord, Style.separates, List.head?_cons, Option.all_some,
        Bool.or_eq_false_iff] at inside
      simp [isGap, peek?, inside]

/-- A plain scalar goes on over the characters of a word. -/
theorem plainWord?_append {w s : List Char} (solid : ∀ c ∈ w, isWhite c = false) {after : Bool}
    (unmarked : Style.hasInnerMark after (w ++ s) = false) (rest : List Char) (fuel : Nat)
    (word : List Char) (index line column : Nat) :
    plainWord? false (w.length + fuel) word ⟨w ++ (s ++ rest), index, line, column⟩ =
      plainWord? false fuel (w.reverse ++ word)
        ⟨s ++ rest, index + w.length, line, column + w.length⟩ := by
  induction w generalizing after word index column with
  | nil => simp
  | cons c w ih =>
      obtain ⟨here, later⟩ := List.forall_mem_cons.1 solid
      rw [List.cons_append, hasInnerMark_cons_eq_false] at unmarked
      obtain ⟨⟨colon, -⟩, inner⟩ := unmarked
      have noGap : isGap ⟨c :: (w ++ (s ++ rest)), index, line, column⟩ = false := by
        rw [Bool.eq_false_iff, ne_eq, isGap_iff]
        intro gap
        rw [gap c rfl] at here
        cases here
      have noColon : (c == ':' && isGap ⟨c :: (w ++ (s ++ rest)), index, line, column⟩ 1) =
          false := by
        rw [Bool.and_eq_false_iff] at colon ⊢
        refine colon.imp_right fun inside => ?_
        rw [← List.append_assoc, isGap_of_inside inside]
      have step := ih later inner (c :: word) (index + 1) (column + 1)
      rw [List.length_cons, Nat.succ_add, List.cons_append, plainWord?]
      simp only [noGap, noColon, Bool.false_eq_true, if_false, Bool.false_and, Bool.or_false]
      rw [skip, List.drop_one, List.tail_cons, step, List.reverse_cons, List.append_assoc,
        List.singleton_append, Nat.add_assoc, Nat.add_assoc, Nat.add_comm 1]

theorem plainWord?_of_ends {rest : List Char} (ends : EndsWord rest) (fuel : Nat)
    (word : List Char) (index line column : Nat) :
    plainWord? false (fuel + 1) word ⟨rest, index, line, column⟩ =
      some (word, ⟨rest, index, line, column⟩) := by
  rcases ends with gap | ⟨more, rfl, gap⟩
  · have isGap := (isGap_iff index line column).2 gap
    rw [plainWord?]
    cases rest with
    | nil => rfl
    | cons c rest => simp only [isGap, if_true]
  · have noGap : isGap ⟨':' :: more, index, line, column⟩ = false := rfl
    have isGap : isGap ⟨':' :: more, index, line, column⟩ 1 = true := by
      cases more with
      | nil => rfl
      | cons c more => simpa [Cursor.isGap, peek?, isWhite] using gap
    rw [plainWord?]
    simp [noGap, isGap]

theorem isAt_of_isWord {w s : List Char} (word : IsWord w s) (rest : List Char)
    (index line column : Nat) : isAt ⟨w ++ rest, index, line, column⟩ '#' = false := by
  obtain ⟨nonempty, -, unmarked⟩ := word
  obtain ⟨c, w, rfl⟩ := List.exists_cons_of_ne_nil nonempty
  rw [List.cons_append, hasInnerMark_cons_eq_false] at unmarked
  simpa [isAt] using unmarked.1.2

/-- After a word, a plain scalar ends or goes on behind the gap. -/
theorem plain?_word {w s rest : List Char} (word : IsWord w s) (ends : EndsWord (s ++ rest))
    {index line column : Nat}
    (start : isDocumentMarker ⟨w ++ (s ++ rest), index, line, column⟩ = false) (indent fuel : Nat)
    (text : List Char) (gap : Gap) :
    plain? false indent (fuel + 1) text gap ⟨w ++ (s ++ rest), index, line, column⟩ =
      let next : Cursor := ⟨s ++ rest, index + w.length, line, column + w.length⟩
      if next.holds isWhite then
        (Gap.read? indent ((s ++ rest).length + 1) {} next).bind fun read =>
          if read.2.column < indent then some (text ++ gap.text ++ w, read.1.broken, read.2)
          else plain? false indent fuel (text ++ gap.text ++ w) read.1 read.2
      else some (text ++ gap.text ++ w, false, next) := by
  have read : plainWord? false ((w ++ (s ++ rest)).length + 1) []
      ⟨w ++ (s ++ rest), index, line, column⟩ =
        some (w.reverse, ⟨s ++ rest, index + w.length, line, column + w.length⟩) := by
    rw [List.length_append, Nat.add_assoc, plainWord?_append word.solid word.unmarked,
      plainWord?_of_ends ends, List.append_nil]
  have filled : w.reverse.isEmpty = false := by
    rw [List.isEmpty_reverse, Bool.eq_false_iff, ne_eq, List.isEmpty_iff]
    exact word.nonempty
  rw [plain?, start, isAt_of_isWord word]
  simp only [read, filled, List.reverse_reverse, Bool.or_false, Bool.false_eq_true, if_false,
    Bool.not_false, Bool.true_and, decide_eq_true_eq]
  change (if holds _ isWhite = true then _ else _) = _
  congr 1
  cases Gap.read? indent ((s ++ rest).length + 1) {} _ <;> rfl

end Cursor

namespace Gap

theorem read?_of_solid {rest : List Char} (solid : ∀ c ∈ rest.head?, isWhite c = false)
    (indent fuel : Nat) (gap : Gap) (index line column : Nat) :
    read? indent (fuel + 1) gap ⟨rest, index, line, column⟩ =
      some (gap, ⟨rest, index, line, column⟩) := by
  cases rest with
  | nil => rfl
  | cons c rest =>
      have here := solid c rfl
      rw [isWhite, Bool.or_eq_false_iff] at here
      simp [read?, Cursor.holds, Cursor.peek?, here]

theorem read?_spaces {rest : List Char} (solid : ∀ c ∈ rest.head?, isWhite c = false)
    (indent n fuel : Nat) (blanks : List Char) (index line column : Nat) :
    read? indent (n + (fuel + 1)) { blanks } ⟨List.replicate n ' ' ++ rest, index, line, column⟩ =
      some ({ blanks := blanks ++ List.replicate n ' ' },
        ⟨rest, index + n, line, column + n⟩) := by
  induction n generalizing blanks index column with
  | zero => rw [Nat.zero_add, read?_of_solid (by simpa using solid)]; simp
  | succ n ih =>
      have step : read? indent (n + (fuel + 1) + 1) { blanks }
          ⟨' ' :: (List.replicate n ' ' ++ rest), index, line, column⟩ =
            read? indent (n + (fuel + 1)) { blanks := blanks ++ [' '] }
              ⟨List.replicate n ' ' ++ rest, index + 1, line, column + 1⟩ := rfl
      rw [List.replicate_succ, List.cons_append, Nat.succ_add, step, ih, List.append_assoc,
        List.singleton_append, Nat.add_assoc, Nat.add_assoc, Nat.add_comm 1]

theorem read?_feed {rest : List Char} (solid : ∀ c ∈ rest.head?, isWhite c = false)
    (indent fuel : Nat) (index line column : Nat) :
    read? indent (fuel + 2) {} ⟨'\n' :: rest, index, line, column⟩ =
      some ({ first := ['\n'], broken := true }, ⟨rest, index + 1, line + 1, 0⟩) :=
  read?_of_solid solid indent fuel _ _ _ _

end Gap

namespace Cursor

section Plain

variable {w rest : List Char} {indent index line column : Nat}

theorem plain?_colon (word : IsWord w [])
    (start : isDocumentMarker ⟨w ++ ':' :: ' ' :: rest, index, line, column⟩ = false)
    (fuel : Nat) (text : List Char) (gap : Gap) :
    plain? false indent (fuel + 1) text gap ⟨w ++ ':' :: ' ' :: rest, index, line, column⟩ =
      some (text ++ gap.text ++ w, false,
        ⟨':' :: ' ' :: rest, index + w.length, line, column + w.length⟩) := by
  have ends : EndsWord ([] ++ ':' :: ' ' :: rest) := .inr ⟨_, rfl, by rintro c ⟨⟩; rfl⟩
  exact plain?_word word ends start indent fuel text gap

theorem plain?_feed (word : IsWord w []) (solid : ∀ c ∈ rest.head?, isWhite c = false)
    (start : isDocumentMarker ⟨w ++ '\n' :: rest, index, line, column⟩ = false)
    (positive : 0 < indent) (fuel : Nat) (text : List Char) (gap : Gap) :
    plain? false indent (fuel + 1) text gap ⟨w ++ '\n' :: rest, index, line, column⟩ =
      some (text ++ gap.text ++ w, true, ⟨rest, index + w.length + 1, line + 1, 0⟩) := by
  have ends : EndsWord ([] ++ '\n' :: rest) := .inl (by rintro c ⟨⟩; rfl)
  have between := Gap.read?_feed solid indent rest.length (index + w.length) line
    (column + w.length)
  have white : holds ⟨'\n' :: rest, index + w.length, line, column + w.length⟩ isWhite = true :=
    rfl
  have step := plain?_word word ends start indent fuel text gap
  rw [List.nil_append] at step
  rw [step]
  dsimp only
  rw [white, if_pos rfl, List.length_cons, between, Option.bind_some, if_pos positive]

theorem plain?_spaces {more : List Char} {n : Nat}
    (word : IsWord w (List.replicate (n + 1) ' ' ++ more))
    (solid : ∀ c ∈ (more ++ rest).head?, isWhite c = false)
    (start : isDocumentMarker
      ⟨w ++ (List.replicate (n + 1) ' ' ++ more ++ rest), index, line, column⟩ = false)
    (inside : indent ≤ column + 1) (fuel : Nat) (text : List Char) (gap : Gap) :
    plain? false indent (fuel + 1) text gap
        ⟨w ++ (List.replicate (n + 1) ' ' ++ more ++ rest), index, line, column⟩ =
      plain? false indent fuel (text ++ gap.text ++ w) { blanks := List.replicate (n + 1) ' ' }
        ⟨more ++ rest, index + w.length + (n + 1), line, column + w.length + (n + 1)⟩ := by
  have ends : EndsWord (List.replicate (n + 1) ' ' ++ more ++ rest) :=
    .inl (by rintro c ⟨⟩; rfl)
  have between := Gap.read?_spaces solid indent (n + 1) (more ++ rest).length [] (index + w.length)
    line (column + w.length)
  have length : (List.replicate (n + 1) ' ' ++ (more ++ rest)).length + 1 =
      n + 1 + ((more ++ rest).length + 1) := by
    rw [List.length_append, List.length_replicate, Nat.add_assoc]
  have white : holds ⟨List.replicate (n + 1) ' ' ++ more ++ rest, index + w.length, line,
      column + w.length⟩ isWhite = true := rfl
  have right : ¬ column + w.length + (n + 1) < indent := by omega
  rw [plain?_word word ends start indent fuel text gap]
  dsimp only
  rw [white, if_pos rfl, List.append_assoc, length, between, Option.bind_some, if_neg right,
    List.nil_append]

theorem isDocumentMarker_of_pos {cursor : Cursor} (right : 0 < cursor.column) :
    cursor.isDocumentMarker = false := by
  have other : (cursor.column == 0) = false := beq_eq_false_iff_ne.2 right.ne'
  rw [isDocumentMarker, isMarker, isMarker, other]
  rfl

/--
A text that stands plain is read whole before a text that a last word is read
before: the words before the last one are read with the spaces behind them.
-/
theorem plain?_words {s : List Char} (words : IsWords s) (stop : Nat → Nat → Bool × Cursor)
    (last : ∀ {w : List Char} {index column : Nat}, IsWord w [] →
      isDocumentMarker ⟨w ++ rest, index, line, column⟩ = false →
      ∀ (fuel : Nat) (text : List Char) (gap : Gap),
        plain? false indent (fuel + 1) text gap ⟨w ++ rest, index, line, column⟩ =
          some (text ++ gap.text ++ w, stop (index + w.length) (column + w.length)))
    (start : isDocumentMarker ⟨s ++ rest, index, line, column⟩ = false)
    (inside : indent ≤ column + 1) {fuel : Nat} (enough : s.length ≤ fuel) (text : List Char)
    (gap : Gap) :
    plain? false indent fuel text gap ⟨s ++ rest, index, line, column⟩ =
      some (text ++ gap.text ++ s, stop (index + s.length) (column + s.length)) := by
  induction fuel generalizing s index column text gap with
  | zero => exact absurd (List.length_eq_zero_iff.1 (Nat.le_zero.1 enough)) words.nonempty
  | succ fuel ih =>
      rcases words.exists_word with word | ⟨w, n, more, rfl, word, later⟩
      · exact last word start fuel text gap
      · have solid : ∀ c ∈ (more ++ rest).head?, isWhite c = false := by
          obtain ⟨d, more, rfl⟩ := List.exists_cons_of_ne_nil later.nonempty
          rintro c ⟨⟩
          refine (later.solid d List.mem_cons_self).resolve_left ?_
          rintro rfl
          exact later.starts rfl
        simp only [List.length_append, List.length_replicate] at enough
        rw [List.append_assoc] at start
        have right : isDocumentMarker ⟨more ++ rest, index + w.length + (n + 1), line,
            column + w.length + (n + 1)⟩ = false :=
          isDocumentMarker_of_pos (Nat.succ_pos _)
        have rest := ih later right (by omega) (by omega) (text ++ gap.text ++ w)
          { blanks := List.replicate (n + 1) ' ' }
        rw [List.append_assoc, plain?_spaces word solid start inside, rest]
        simp [Gap.text, Nat.add_assoc]

/-- A key is read up to its colon. -/
theorem plain?_key {s : List Char} (words : IsWords s)
    (start : isDocumentMarker ⟨s ++ ':' :: ' ' :: rest, index, line, column⟩ = false)
    (inside : indent ≤ column + 1) {fuel : Nat} (enough : s.length ≤ fuel) :
    plain? false indent fuel [] {} ⟨s ++ ':' :: ' ' :: rest, index, line, column⟩ =
      some (s, false, ⟨':' :: ' ' :: rest, index + s.length, line, column + s.length⟩) :=
  plain?_words words
    (fun index column => (false, ⟨':' :: ' ' :: rest, index, line, column⟩))
    plain?_colon start inside enough [] {}

/-- A value is read with the end of its line. -/
theorem plain?_value {s : List Char} (words : IsWords s)
    (solid : ∀ c ∈ rest.head?, isWhite c = false)
    (start : isDocumentMarker ⟨s ++ '\n' :: rest, index, line, column⟩ = false)
    (inside : indent ≤ column + 1) (positive : 0 < indent) {fuel : Nat}
    (enough : s.length ≤ fuel) :
    plain? false indent fuel [] {} ⟨s ++ '\n' :: rest, index, line, column⟩ =
      some (s, true, ⟨rest, index + s.length + 1, line + 1, 0⟩) :=
  plain?_words words (fun index _ => (true, ⟨rest, index + 1, line + 1, 0⟩))
    (fun word start => plain?_feed word solid start positive) start inside enough [] {}

end Plain

end Cursor

end Yaml

end UiMarkdown
