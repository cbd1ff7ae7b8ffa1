import UiMarkdown.Proofs.Template.Piece

/-!
# Seams

Where a text is put together from two, an expression may lie across the seam.  When
none does, the expressions of the text are those of the first part and then those of
the second one, at the places where they stand there.
-/

namespace UiMarkdown

namespace Text

@[simp] theorem byteLength_nil : byteLength [] = 0 := rfl

@[simp] theorem byteLength_cons (c : Char) (s : List Char) :
    byteLength (c :: s) = c.utf8Size + byteLength s := rfl

@[simp] theorem byteLength_append (a b : List Char) :
    byteLength (a ++ b) = byteLength a + byteLength b := by
  induction a with
  | nil => simp
  | cons c a ih => simp [ih, Nat.add_assoc]

theorem byteLength_eq_zero_iff {s : List Char} : byteLength s = 0 ↔ s = [] := by
  cases s with
  | nil => simp
  | cons c s =>
      have positive := c.utf8Size_pos
      simp
      omega

end Text

namespace Template

def spanTexts (s : List Char) : List (List Char) :=
  (pieces s).filterMap fun
    | .plain _ => none
    | .span body => some (Piece.span body).text

def shift (n : Nat) (range : Nat × Nat) : Nat × Nat :=
  (n + range.1, n + range.2)

/-- No span of two adjoining texts lies across their seam. -/
def Apart (a b : List Char) : Prop :=
  ∀ range ∈ ranges (a ++ b),
    ¬ (range.1 < Text.byteLength a ∧ Text.byteLength a < range.2)

/-! ## The ranges of pieces -/

theorem rangesFrom_append (n : Nat) (front back : List Piece) :
    rangesFrom n (front ++ back) =
      rangesFrom n front ++ rangesFrom (n + Text.byteLength (front.flatMap Piece.text)) back := by
  induction front generalizing n with
  | nil => rfl
  | cons piece front ih =>
      cases piece with
      | plain s => simp [rangesFrom, ih, Piece.text, Nat.add_assoc]
      | span body => simp [rangesFrom, ih, Nat.add_assoc]

theorem rangesFrom_add (n m : Nat) (pieces : List Piece) :
    rangesFrom (n + m) pieces = (rangesFrom m pieces).map (shift n) := by
  induction pieces generalizing m with
  | nil => rfl
  | cons piece pieces ih =>
      cases piece with
      | plain s => simp [rangesFrom, Nat.add_assoc, ih]
      | span body => simp [rangesFrom, Nat.add_assoc, ih, shift]

theorem rangesFrom_plainPiece (n : Nat) (s : List Char) : rangesFrom n (plainPiece s) = [] := by
  cases s <;> rfl

/-- The spans of pieces lie among the pieces. -/
theorem bounds_of_mem_rangesFrom {n : Nat} {pieces : List Piece} {range : Nat × Nat}
    (mem : range ∈ rangesFrom n pieces) :
    n ≤ range.1 ∧ range.2 ≤ n + Text.byteLength (pieces.flatMap Piece.text) := by
  induction pieces generalizing n with
  | nil => cases mem
  | cons piece pieces ih =>
      cases piece with
      | plain s =>
          have inner := ih mem
          simp only [List.flatMap_cons, Text.byteLength_append, Piece.text]
          omega
      | span body =>
          simp only [List.flatMap_cons, Text.byteLength_append]
          rcases List.mem_cons.1 mem with rfl | mem
          · constructor <;> simp
          · have inner := ih mem
            omega

/-- The first span of a text, and those of the text behind it. -/
theorem ranges_of_cutSpan? {s before body after : List Char}
    (cut : cutSpan? s = some (before, body, after)) :
    ranges s = shift (Text.byteLength before) (0, Text.byteLength (Piece.span body).text) ::
      (ranges after).map (shift (Text.byteLength (before ++ (Piece.span body).text))) := by
  have plain : (plainPiece before).flatMap Piece.text = before := by
    cases before <;> simp [plainPiece, Piece.text]
  have whole : pieces s = plainPiece before ++ .span body :: pieces after := by
    rw [pieces, cut]
  rw [ranges, whole, rangesFrom_append, rangesFrom_plainPiece, plain, rangesFrom, ranges,
    ← rangesFrom_add, Text.byteLength_append]
  simp [shift]

theorem ranges_eq_nil {s : List Char} (spanless : cutSpan? s = none) : ranges s = [] := by
  have whole : pieces s = plainPiece s := by rw [pieces, spanless]
  rw [ranges, whole, rangesFrom_plainPiece]

theorem spanTexts_of_cutSpan? {s before body after : List Char}
    (cut : cutSpan? s = some (before, body, after)) :
    spanTexts s = (Piece.span body).text :: spanTexts after := by
  have whole : pieces s = plainPiece before ++ .span body :: pieces after := by
    rw [pieces, cut]
  rw [spanTexts, whole, spanTexts]
  cases before <;> simp [plainPiece]

theorem spanTexts_eq_nil {s : List Char} (spanless : cutSpan? s = none) : spanTexts s = [] := by
  have whole : pieces s = plainPiece s := by rw [pieces, spanless]
  rw [spanTexts, whole]
  cases s <;> rfl

/-! ## Texts on both sides of a seam -/

namespace Apart

theorem nil_left (b : List Char) : Apart [] b := by
  rintro range - ⟨starts, -⟩
  simp at starts

theorem nil_right (a : List Char) : Apart a [] := by
  rintro range mem ⟨-, stops⟩
  rw [List.append_nil] at mem
  have inside := (bounds_of_mem_rangesFrom mem).2
  rw [flatMap_text_pieces] at inside
  omega

/-- A seam between two pieces of a text is crossed by none of its spans. -/
theorem of_pieces {s : List Char} {front back : List Piece} (whole : pieces s = front ++ back) :
    Apart (front.flatMap Piece.text) (back.flatMap Piece.text) := by
  have joined : front.flatMap Piece.text ++ back.flatMap Piece.text = s := by
    rw [← List.flatMap_append, ← whole, flatMap_text_pieces]
  intro range mem
  rw [joined, ranges, whole, rangesFrom_append, List.mem_append] at mem
  rcases mem with mem | mem
  · have inside := bounds_of_mem_rangesFrom mem
    omega
  · have inside := bounds_of_mem_rangesFrom mem
    omega

end Apart

/-- The first span lies on one side of a seam that it does not cross. -/
theorem sides_of_cutSpan? {a b before body after : List Char}
    (cut : cutSpan? (a ++ b) = some (before, body, after)) (apart : Apart a b) :
    (∃ m, a = before ++ ((Piece.span body).text ++ m) ∧ after = m ++ b) ∨
      ∃ m, before = a ++ m ∧ b = m ++ ((Piece.span body).text ++ after) := by
  have first : ¬ (Text.byteLength before < Text.byteLength a ∧
      Text.byteLength a < Text.byteLength before + Text.byteLength (Piece.span body).text) := by
    have here := apart _ (ranges_of_cutSpan? cut ▸ List.mem_cons_self)
    simpa [shift] using here
  have whole := eq_append_of_cutSpan? cut
  rcases List.append_eq_append_iff.1 whole with ⟨m, front, back⟩ | ⟨m, front, back⟩
  · rcases List.append_eq_append_iff.1 front with ⟨k, rfl, inner⟩ | ⟨k, rfl, inner⟩
    · -- the seam stands within the span, so at one of its ends
      rw [inner, Text.byteLength_append, Text.byteLength_append] at first
      rcases Nat.eq_zero_or_pos (Text.byteLength k) with empty | some
      · obtain rfl := Text.byteLength_eq_zero_iff.1 empty
        exact .inr ⟨[], by simp, by rw [back, inner]; simp⟩
      · have empty : Text.byteLength m = 0 := by omega
        obtain rfl := Text.byteLength_eq_zero_iff.1 empty
        exact .inl ⟨[], by rw [inner]; simp, by simpa using back.symm⟩
    · exact .inr ⟨k, rfl, by rw [back, inner, List.append_assoc]⟩
  · exact .inl ⟨m, by rw [front, List.append_assoc], back⟩

theorem HasSpan.of_infix {a s : List Char} (spans : HasSpan a) (inside : a <:+: s) : HasSpan s := by
  obtain ⟨before, body, after, rfl⟩ := spans
  obtain ⟨u, v, rfl⟩ := inside
  exact ⟨u ++ before, body, after ++ v, by simp⟩

theorem Opens.of_suffix {a b : List Char} (opens : Opens b) : Opens (a ++ b) := by
  rw [Opens, List.append_assoc]
  exact opens.trans (List.suffix_append a _).isInfix

/-- No braces open in the first part of a text in which none do. -/
theorem cutSpan?_eq_none_of_not_opens {a b : List Char} (shut : ¬ Opens (a ++ b)) :
    cutSpan? a = none := by
  rw [cutSpan?_eq_none_iff]
  rintro ⟨before, body, after, rfl⟩
  exact shut ⟨before, body ++ closing ++ after ++ b ++ ['\x7b'], by simp [Piece.text]⟩

/-- What stands behind the first span of a text is apart from what the text is apart from. -/
theorem Apart.of_cutSpan? {before body m b : List Char}
    (apart : Apart (before ++ ((Piece.span body).text ++ m)) b)
    (cut : cutSpan? (before ++ ((Piece.span body).text ++ m) ++ b) = some (before, body, m ++ b)) :
    Apart m b := by
  intro range mem crosses
  refine apart (shift (Text.byteLength (before ++ (Piece.span body).text)) range) ?_ ?_
  · rw [ranges_of_cutSpan? cut]
    exact List.mem_cons_of_mem _ (List.mem_map_of_mem mem)
  · simp only [shift, Text.byteLength_append] at crosses ⊢
    omega

/-- Two texts have their spans side by side when none lies across the seam. -/
theorem Apart.spans_append {a b : List Char} (apart : Apart a b) :
    ranges (a ++ b) = ranges a ++ (ranges b).map (shift (Text.byteLength a)) ∧
      spanTexts (a ++ b) = spanTexts a ++ spanTexts b := by
  induction size : a.length using Nat.strongRecOn generalizing a with
  | _ n ih =>
      cases cut : cutSpan? (a ++ b) with
      | none =>
          have spanless := cutSpan?_eq_none_iff.1 cut
          have front : cutSpan? a = none := cutSpan?_eq_none_iff.2 fun spans =>
            spanless (spans.of_infix (List.prefix_append a b).isInfix)
          have back : cutSpan? b = none := cutSpan?_eq_none_iff.2 fun spans =>
            spanless (spans.of_infix (List.suffix_append a b).isInfix)
          simp [ranges_eq_nil, spanTexts_eq_nil, cut, front, back]
      | some found =>
          obtain ⟨before, body, after⟩ := found
          obtain ⟨shut, once⟩ := shut_of_cutSpan? cut
          have rangesHere := ranges_of_cutSpan? cut
          have textsHere := spanTexts_of_cutSpan? cut
          rcases sides_of_cutSpan? cut apart with ⟨m, rfl, rfl⟩ | ⟨m, rfl, rfl⟩
          · have cutA := cutSpan?_append shut once m
            have shorter : m.length < n := by
              simp only [← size, Piece.text, opening, List.length_append, List.length_cons]
              omega
            obtain ⟨rangesLater, textsLater⟩ := ih m.length shorter (apart.of_cutSpan? cut) rfl
            constructor
            · rw [rangesHere, rangesLater, ranges_of_cutSpan? cutA]
              simp [shift, Function.comp_def, Nat.add_assoc]
            · rw [textsHere, textsLater, spanTexts_of_cutSpan? cutA, List.cons_append]
          · have cutA := cutSpan?_eq_none_of_not_opens shut
            have cutB := cutSpan?_append (fun opens => shut opens.of_suffix) once after
            constructor
            · rw [rangesHere, ranges_eq_nil cutA, ranges_of_cutSpan? cutB]
              simp [shift, Function.comp_def, Nat.add_assoc]
            · rw [textsHere, spanTexts_eq_nil cutA, spanTexts_of_cutSpan? cutB, List.nil_append]

/-- A seam that no span crosses is crossed by none when more stands in front. -/
theorem Apart.of_append {a b c : List Char} (first : Apart a (b ++ c)) (apart : Apart (a ++ b) c) :
    Apart b c := by
  intro range mem crosses
  refine apart (shift (Text.byteLength a) range) ?_ ?_
  · rw [List.append_assoc, first.spans_append.1]
    exact List.mem_append_right _ (List.mem_map_of_mem mem)
  · simp only [shift, Text.byteLength_append]
    omega

/-- Texts that are put together have their spans side by side when none lies across a seam. -/
theorem spanTexts_flatten {texts : List (List Char)}
    (apart : ∀ left right, texts = left ++ right → Apart left.flatten right.flatten) :
    spanTexts texts.flatten = texts.flatMap spanTexts := by
  induction texts with
  | nil => exact spanTexts_eq_nil rfl
  | cons s more ih =>
      have first : Apart s more.flatten := by simpa using apart [s] more rfl
      have later : spanTexts more.flatten = more.flatMap spanTexts := by
        refine ih fun left right whole => ?_
        rw [whole, List.flatten_append] at first
        exact first.of_append (by simpa using apart (s :: left) right (by simp [whole]))
      rw [List.flatten_cons, first.spans_append.2, later, List.flatMap_cons]

end Template

end UiMarkdown
