import UiMarkdown.Text.Chars

/-!
# Expression spans

An expression span starts with two opening braces and ends with the first two
closing braces after them; it may run over several lines.  A text is the
concatenation of its pieces: the spans, from the left, and what lies between.
-/

namespace UiMarkdown

namespace Template

def opening : List Char := ['\x7b', '\x7b']

def closing : List Char := ['\x7d', '\x7d']

inductive Piece where
  | plain (text : List Char)
  | span (body : List Char)
  deriving DecidableEq, Repr

namespace Piece

def text : Piece → List Char
  | .plain s => s
  | .span body => opening ++ body ++ closing

end Piece

/-- The text before the first span, its body, and the text after it. -/
def cutSpan? (s : List Char) : Option (List Char × List Char × List Char) :=
  match Text.cutOn? opening s with
  | none => none
  | some (before, inside) =>
      match Text.cutOn? closing inside with
      | none => none
      | some (body, after) => some (before, body, after)

/-- A cut loses no character. -/
theorem eq_append_of_cutSpan? {s before body after : List Char}
    (h : cutSpan? s = some (before, body, after)) :
    s = before ++ (Piece.span body).text ++ after := by
  simp only [cutSpan?] at h
  split at h
  · simp at h
  · rename_i cut
    split at h
    · simp at h
    · rename_i inner
      simp only [Option.some.injEq, Prod.mk.injEq] at h
      obtain ⟨rfl, rfl, rfl⟩ := h
      rw [Text.eq_append_of_cutOn? cut, Text.eq_append_of_cutOn? inner]
      simp [Piece.text]

/-- What follows a span is shorter than the text. -/
theorem length_lt_of_cutSpan? {s before body after : List Char}
    (h : cutSpan? s = some (before, body, after)) : after.length < s.length := by
  rw [eq_append_of_cutSpan? h]
  simp [Piece.text, opening, closing]
  omega

/-- The piece of a plain text, unless it is empty. -/
def plainPiece (s : List Char) : List Piece :=
  if s.isEmpty then [] else [.plain s]

def pieces (s : List Char) : List Piece :=
  match _h : cutSpan? s with
  | none => plainPiece s
  | some (before, body, after) => plainPiece before ++ .span body :: pieces after
termination_by s.length
decreasing_by exact length_lt_of_cutSpan? _h

/-- The pieces concatenate to the text. -/
theorem flatMap_text_pieces (s : List Char) : (pieces s).flatMap Piece.text = s := by
  have plain (s : List Char) : (plainPiece s).flatMap Piece.text = s := by
    cases s <;> simp [plainPiece, Piece.text]
  fun_induction pieces s with
  | case1 s h => exact plain s
  | case2 s before body after h ih =>
      rw [List.flatMap_append, List.flatMap_cons, ih, plain, ← List.append_assoc]
      exact (eq_append_of_cutSpan? h).symm

def expressions (s : List Char) : List (List Char) :=
  (pieces s).filterMap fun
    | .plain _ => none
    | .span body => some (Text.trim body)

def rangesFrom : (offset : Nat) → List Piece → List (Nat × Nat)
  | _, [] => []
  | offset, .plain s :: rest => rangesFrom (offset + Text.byteLength s) rest
  | offset, .span body :: rest =>
      let stop := offset + Text.byteLength (Piece.span body).text
      (offset, stop) :: rangesFrom stop rest

def ranges (s : List Char) : List (Nat × Nat) :=
  rangesFrom 0 (pieces s)

end Template

end UiMarkdown
