import UiMarkdown.Proofs.Text.Trim

/-!
# Cuts and words

The words of a text come apart at any white space, so white space around the
text does not count.  A cut is determined by the first place where it can be.
-/

namespace UiMarkdown

namespace Text

/-! ## Cuts -/

/-- What stands before a cut does not satisfy what is cut at. -/
theorem not_of_mem_of_cutAt? {p : Char → Bool} {s before after : List Char}
    (cut : cutAt? p s = some (before, after)) : ∀ c ∈ before, p c = false := by
  induction s generalizing before with
  | nil => cases cut
  | cons c s ih =>
      rw [cutAt?] at cut
      split at cut
      · cases cut
        exact List.forall_mem_nil _
      · rename_i stays
        obtain ⟨⟨before', after'⟩, cut', same⟩ := Option.map_eq_some_iff.1 cut
        cases same
        exact List.forall_mem_cons.2 ⟨Bool.eq_false_iff.2 stays, ih cut'⟩

theorem cutAt?_append {p : Char → Bool} {before : List Char} {c : Char} (after : List Char)
    (stays : ∀ c ∈ before, p c = false) (cuts : p c = true) :
    cutAt? p (before ++ c :: after) = some (before, after) := by
  induction before with
  | nil => rw [List.nil_append, cutAt?, if_pos cuts]
  | cons d before ih =>
      rw [List.forall_mem_cons] at stays
      rw [List.cons_append, cutAt?, stays.1, if_neg Bool.false_ne_true, ih stays.2]
      rfl

theorem cutAt?_eq_none_iff {p : Char → Bool} {s : List Char} :
    cutAt? p s = none ↔ ∀ c ∈ s, p c = false := by
  induction s with
  | nil => simp [cutAt?]
  | cons c s ih =>
      rw [cutAt?, List.forall_mem_cons, ← ih]
      cases here : p c with
      | true => simp
      | false => simp

/-! ## Trimmed texts -/

/-- A text that ends in no white space stays at its end. -/
theorem trimEnd_trim (s : List Char) : trimEnd (trim s) = trim s :=
  dropEnd_dropEnd isBlank (trimStart s)

/-- A trimmed text does not start with white space. -/
theorem isBlank_of_trim_eq_cons {s rest : List Char} {c : Char} (starts : trim s = c :: rest) :
    isBlank c = false := by
  have again := trim_trim s
  rw [trim_eq_trimStart_trimEnd (trim s), trimEnd_trim, starts, trimStart] at again
  have head := List.head?_dropWhile_not isBlank (c :: rest)
  rw [again] at head
  simpa using head

/-- White space in front of a text that ends in something else is kept, and that end too. -/
theorem trimEnd_append {a b : List Char} (kept : trimEnd b ≠ []) :
    trimEnd (a ++ b) = a ++ trimEnd b :=
  dropEnd_append_of_ne_nil kept

/-- A text whose first character and whose end are no white space is trimmed. -/
theorem trim_eq_self {c : Char} {s : List Char} (starts : isBlank c = false)
    (ends : trimEnd (c :: s) = c :: s) : trim (c :: s) = c :: s := by
  rw [trim, trimStart, List.dropWhile_cons_of_neg (by rw [starts]; exact Bool.false_ne_true), ends]

/-- Only white space is trimmed away. -/
theorem allBlank_of_trim_eq_nil {s : List Char} (gone : trim s = []) : allBlank s = true := by
  obtain ⟨before, after, split, front, back⟩ := exists_append_trim s
  rw [gone, List.nil_append] at split
  rw [split, allBlank, List.all_append, Bool.and_eq_true]
  exact ⟨front, back⟩

theorem trimEnd_eq_self_of_forall {s : List Char} (letters : ∀ c ∈ s, isBlank c = false) :
    trimEnd s = s := by
  induction s with
  | nil => rfl
  | cons c s ih =>
      rw [List.forall_mem_cons] at letters
      rw [trimEnd, dropEnd_cons_of_not s letters.1]
      exact congrArg _ (ih letters.2)

/-- Only white space is trimmed away at the end. -/
theorem allBlank_of_trimEnd_eq_nil {s : List Char} (gone : trimEnd s = []) :
    allBlank s = true := by
  obtain ⟨after, split, all⟩ := exists_append_dropEnd isBlank s
  rw [show dropEnd isBlank s = [] from gone, List.nil_append] at split
  rw [split]
  exact all

/-- What is kept behind a trimmed text starts with white space if what follows the text does. -/
theorem exists_trimEnd_append (s : List Char) {after : List Char}
    (gap : ∀ c ∈ after.head?, isBlank c = true) :
    ∃ rest, trimEnd (s ++ after) = trimEnd s ++ rest ∧ ∀ c ∈ rest.head?, isBlank c = true := by
  obtain ⟨dropped, split, all⟩ := exists_append_dropEnd isBlank after
  by_cases kept : trimEnd after = []
  · rw [show dropEnd isBlank after = [] from kept, List.nil_append] at split
    rw [← split] at all
    exact ⟨[], by rw [List.append_nil, trimEnd, dropEnd_append all, trimEnd], by simp⟩
  · obtain ⟨blanks, whole, isBlanks⟩ := exists_append_dropEnd isBlank s
    refine ⟨blanks ++ trimEnd after, ?_, ?_⟩
    · rw [trimEnd_append kept, ← List.append_assoc]
      exact congrArg (· ++ trimEnd after) whole
    · intro c first
      cases blanks with
      | nil =>
          refine gap c ?_
          rw [List.nil_append] at first
          rw [split]
          exact (List.head?_append_of_ne_nil _ kept).symm ▸ first
      | cons d blanks =>
          cases first
          exact List.all_eq_true.1 isBlanks _ List.mem_cons_self

/-! ## Words -/

theorem words_singleton (c : Char) : words [c] = if isBlank c then [] else [[c]] :=
  (rfl)

/-- What a character followed by another one does to the words after it. -/
theorem words_cons_cons (c d : Char) (s : List Char) :
    words (c :: d :: s) =
      if isBlank c then words (d :: s)
      else if isBlank d then [c] :: words (d :: s)
      else
        match words (d :: s) with
        | [] => [[c]]
        | word :: more => (c :: word) :: more :=
  (rfl)

theorem words_cons_blank {b : Char} (blank : isBlank b = true) (s : List Char) :
    words (b :: s) = words s := by
  cases s with
  | nil =>
      rw [words_singleton, if_pos blank]
      rfl
  | cons d s => rw [words_cons_cons, if_pos blank]

theorem words_cons_ne_nil {c : Char} (s : List Char) (letter : isBlank c = false) :
    words (c :: s) ≠ [] := by
  cases s with
  | nil =>
      rw [words_singleton, letter, if_neg Bool.false_ne_true]
      exact List.cons_ne_nil _ _
  | cons d s =>
      rw [words_cons_cons, letter, if_neg Bool.false_ne_true]
      split
      · exact List.cons_ne_nil _ _
      · split <;> exact List.cons_ne_nil _ _

/-- Words come apart at white space. -/
theorem words_append_blank {b : Char} (blank : isBlank b = true) (x y : List Char) :
    words (x ++ b :: y) = words x ++ words y := by
  induction x with
  | nil => exact words_cons_blank blank y
  | cons c x ih =>
      rw [List.cons_append]
      cases here : isBlank c with
      | true => rw [words_cons_blank here, words_cons_blank here, ih]
      | false =>
          cases x with
          | nil =>
              rw [List.nil_append, words_cons_cons, words_singleton, here, blank,
                if_neg Bool.false_ne_true, if_pos rfl, words_cons_blank blank,
                if_neg Bool.false_ne_true, List.singleton_append]
          | cons d x =>
              rw [List.cons_append] at ih ⊢
              rw [words_cons_cons, here, if_neg Bool.false_ne_true, ih, words_cons_cons, here,
                if_neg Bool.false_ne_true]
              cases next : isBlank d with
              | true => rw [if_pos rfl, if_pos rfl, List.cons_append]
              | false =>
                  rw [if_neg Bool.false_ne_true, if_neg Bool.false_ne_true]
                  cases found : words (d :: x) with
                  | nil => exact absurd found (words_cons_ne_nil x next)
                  | cons word more => rfl

theorem words_of_allBlank {s : List Char} (blank : allBlank s = true) : words s = [] := by
  induction s with
  | nil => rfl
  | cons c s ih =>
      rw [allBlank, List.all_cons, Bool.and_eq_true] at blank
      rw [words_cons_blank blank.1, ih blank.2]

/-- White space around a text does not count for its words. -/
theorem words_trim (s : List Char) : words (trim s) = words s := by
  obtain ⟨before, after, split, front, back⟩ := exists_append_trim s
  have shown : words (trim s ++ after) = words (trim s) := by
    cases after with
    | nil => rw [List.append_nil]
    | cons b after =>
        rw [allBlank, List.all_cons, Bool.and_eq_true] at back
        rw [words_append_blank back.1, words_of_allBlank back.2, List.append_nil]
  rw [← shown]
  refine .trans ?_ (congrArg words split).symm
  clear split shown
  induction before with
  | nil => rw [List.nil_append]
  | cons b before ih =>
      rw [allBlank, List.all_cons, Bool.and_eq_true] at front
      rw [List.cons_append, words_cons_blank front.1, ih front.2]

end Text

end UiMarkdown
