import UiMarkdown.Proofs.Text.Occurrence
import UiMarkdown.Template.Span

/-!
# Spans as parts of a text

The search for a span from the left misses none: it fails exactly when no
opening braces have closing braces behind them.
-/

namespace UiMarkdown

namespace Template

/-- A text has a span: opening braces with closing braces somewhere after them. -/
def HasSpan (s : List Char) : Prop :=
  ∃ before body after, s = before ++ (Piece.span body).text ++ after

/-- The search for a span finds one exactly when there is one. -/
theorem cutSpan?_eq_none_iff {s : List Char} : cutSpan? s = none ↔ ¬ HasSpan s := by
  constructor
  · rintro spanless ⟨before, body, after, rfl⟩
    have whole : before ++ (Piece.span body).text ++ after =
        before ++ opening ++ (body ++ closing ++ after) := by simp [Piece.text]
    rw [whole, cutSpan?] at spanless
    cases cut : Text.cutOn? opening (before ++ opening ++ (body ++ closing ++ after)) with
    | none => exact Text.cutOn?_eq_none_iff.1 cut (List.infix_append _ _ _)
    | some found =>
        obtain ⟨first, inside⟩ := found
        have behind := Text.suffix_of_cutOn? cut rfl
        rw [cut] at spanless
        cases cut' : Text.cutOn? closing inside with
        | none =>
            exact Text.cutOn?_eq_none_iff.1 cut' ((List.infix_append _ _ _).trans behind.isInfix)
        | some found => simp [cut'] at spanless
  · intro spanless
    cases cut : cutSpan? s with
    | none => rfl
    | some found => exact absurd ⟨_, _, _, eq_append_of_cutSpan? cut⟩ spanless

/-- A text in which no braces open adds no span to the text after it. -/
theorem cutSpan?_append_eq_none {a b : List Char} (h : ¬ Text.StartsIn opening a b)
    (spanless : cutSpan? b = none) : cutSpan? (a ++ b) = none := by
  rw [cutSpan?] at spanless ⊢
  rw [Text.cutOn?_append_of_not_startsIn h]
  cases cut : Text.cutOn? opening b with
  | none => rfl
  | some found =>
      obtain ⟨before, inside⟩ := found
      simp only [cut] at spanless
      cases cut' : Text.cutOn? closing inside with
      | none => simp [cut']
      | some found => simp [cut'] at spanless

/-- The braces that open the first span do not stand before it. -/
theorem not_infix_of_cutSpan? {s before body after : List Char}
    (h : cutSpan? s = some (before, body, after)) : ¬ opening <:+: before := by
  rw [cutSpan?] at h
  cases cut : Text.cutOn? opening s with
  | none => simp [cut] at h
  | some found =>
      obtain ⟨first, inside⟩ := found
      simp only [cut] at h
      cases cut' : Text.cutOn? closing inside with
      | none => simp [cut'] at h
      | some found =>
          simp only [cut', Option.some.injEq, Prod.mk.injEq] at h
          rw [← h.1]
          exact Text.not_infix_of_cutOn? (by decide) cut

end Template

end UiMarkdown
