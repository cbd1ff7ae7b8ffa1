import UiMarkdown.Proofs.Template.Span

/-!
# Pieces and the spans around them

A text that is put together from pieces has a span that is none of them when
braces are left open before other braces close.  The shadow of the pieces shows
these braces and hides the bodies of the spans.
-/

namespace UiMarkdown

namespace Text

/-- Whether an occurrence of two characters starts in a text depends on one character after it. -/
theorem StartsIn.pair_iff {c d e : Char} {a b : List Char} :
    StartsIn [c, d] a (e :: b) ↔ [c, d] <:+: a ++ [e] := by
  induction a with
  | nil => simp [List.infix_cons_iff]
  | cons x a ih =>
      have here : [c, d] <+: x :: (a ++ e :: b) ↔ [c, d] <+: x :: (a ++ [e]) := by
        cases a <;> simp [List.cons_prefix_cons]
      rw [cons_iff, List.cons_append, List.infix_cons_iff, ih, here]

/-- A pattern without a character lies on one side of it. -/
theorem exists_of_not_mem {p a b x y : List Char} {c : Char} (absent : c ∉ p)
    (whole : a ++ c :: b = x ++ (p ++ y)) :
    (∃ y', a = x ++ (p ++ y') ∧ y = y' ++ c :: b) ∨
      ∃ x', x = a ++ c :: x' ∧ b = x' ++ (p ++ y) := by
  rcases List.append_eq_append_iff.1 whole with ⟨m, rfl, later⟩ | ⟨m, rfl, later⟩
  · cases m with
    | cons d m =>
        obtain ⟨rfl, rfl⟩ := List.cons.inj later
        exact .inr ⟨m, rfl, rfl⟩
    | nil =>
        cases p with
        | nil => exact .inl ⟨[], by simp, later.symm⟩
        | cons d p =>
            obtain ⟨rfl, -⟩ := List.cons.inj later
            exact absurd List.mem_cons_self absent
  · rcases List.append_eq_append_iff.1 later with ⟨k, rfl, rfl⟩ | ⟨k, rfl, last⟩
    · exact .inl ⟨k, rfl, rfl⟩
    · cases k with
      | nil => exact .inl ⟨[], by simp, last.symm⟩
      | cons d k =>
          obtain ⟨rfl, -⟩ := List.cons.inj last
          exact absurd (List.mem_append_right m List.mem_cons_self) absent

theorem infix_append_cons_iff {p a b : List Char} {c : Char} (absent : c ∉ p) :
    p <:+: a ++ c :: b ↔ p <:+: a ∨ p <:+: b := by
  constructor
  · rintro ⟨x, y, whole⟩
    rw [List.append_assoc] at whole
    rcases exists_of_not_mem absent whole.symm with ⟨y', rfl, -⟩ | ⟨x', -, rfl⟩
    · exact .inl ⟨x, y', by simp⟩
    · exact .inr ⟨x', y, by simp⟩
  · rintro (⟨x, y, rfl⟩ | ⟨x, y, rfl⟩)
    · exact ⟨x, y ++ c :: b, by simp⟩
    · exact ⟨a ++ c :: x, y, by simp⟩

theorem infix_cons_iff_of_not_mem {p s : List Char} {c : Char} (nonempty : p ≠ [])
    (absent : c ∉ p) : p <:+: c :: s ↔ p <:+: s := by
  have split := infix_append_cons_iff (a := []) (b := s) absent
  rwa [List.nil_append, List.infix_nil, or_iff_right nonempty] at split

end Text

namespace Template

/-- Braces open in a text, or would open if one more followed. -/
def Opens (s : List Char) : Prop :=
  opening <:+: s ++ ['\x7b']

/-- Braces close in a text, or would close if one more followed. -/
def Closes (s : List Char) : Prop :=
  closing <:+: s ++ ['\x7d']

namespace Piece

/-- The braces of a piece that count for the pieces before it. -/
def shadow : Piece → List Char
  | .plain s => s
  | .span _ => '\x7b' :: closing

/-- The braces that close a span are the first ones after those that open it. -/
def ClosesOnce : Piece → Prop
  | .plain _ => True
  | .span body => ¬ Closes body

end Piece

/-- A span is cut off behind a text in which no braces open. -/
theorem cutSpan?_append {x body : List Char} (shut : ¬ Opens x) (once : ¬ Closes body)
    (rest : List Char) :
    cutSpan? (x ++ ((Piece.span body).text ++ rest)) = some (x, body, rest) := by
  have front : ¬ Text.StartsIn opening x (opening ++ (body ++ (closing ++ rest))) :=
    Text.StartsIn.pair_iff.not.2 shut
  have back : ¬ Text.StartsIn closing body (closing ++ rest) := Text.StartsIn.pair_iff.not.2 once
  have first (a : List Char) : Text.cutOn? opening (opening ++ a) = some ([], a) := by
    simp [opening, Text.cutOn?, List.isPrefixOf?]
  have second (a : List Char) : Text.cutOn? closing (closing ++ a) = some ([], a) := by
    simp [closing, Text.cutOn?, List.isPrefixOf?]
  have whole : x ++ ((Piece.span body).text ++ rest) =
      x ++ (opening ++ (body ++ (closing ++ rest))) := by simp [Piece.text]
  rw [whole, cutSpan?, Text.cutOn?_append_of_not_startsIn front, first]
  simp only [Option.map_some, List.append_nil]
  rw [Text.cutOn?_append_of_not_startsIn back, second]
  simp

/-- What the first span of a text says about its surroundings. -/
theorem shut_of_cutSpan? {s before body after : List Char}
    (cut : cutSpan? s = some (before, body, after)) : ¬ Opens before ∧ ¬ Closes body := by
  rw [cutSpan?] at cut
  cases found : Text.cutOn? opening s with
  | none => simp [found] at cut
  | some first =>
      obtain ⟨before', inside⟩ := first
      simp only [found] at cut
      cases found' : Text.cutOn? closing inside with
      | none => simp [found'] at cut
      | some second =>
          simp only [found', Option.some.injEq, Prod.mk.injEq] at cut
          obtain ⟨rfl, rfl, -⟩ := cut
          exact ⟨Text.StartsIn.pair_iff.not.1 (Text.not_startsIn_of_cutOn? found),
            Text.StartsIn.pair_iff.not.1 (Text.not_startsIn_of_cutOn? found')⟩

/-- In the shadow of a span no braces open, unless they did before it. -/
theorem not_startsIn_shadow {x : List Char} (shut : ¬ Opens x) (body s : List Char) :
    ¬ Text.StartsIn opening (x ++ (Piece.span body).shadow) s := by
  have whole : x ++ (Piece.span body).shadow = x ++ ['\x7b', '\x7d'] ++ ['\x7d'] := by
    simp [Piece.shadow, closing]
  rw [whole]
  refine Text.StartsIn.not_of_last_not_mem ?_ (by decide)
  rw [show x ++ ['\x7b', '\x7d'] ++ ['\x7d'] = (x ++ ['\x7b']) ++ '\x7d' :: ['\x7d'] by simp,
    Text.infix_append_cons_iff (by decide), not_or]
  exact ⟨shut, by decide⟩

/-- The shadow of a span behind a text in which no braces open adds no span to what follows. -/
theorem hasSpan_append_shadow_iff {x : List Char} (shut : ¬ Opens x) (body s : List Char) :
    HasSpan (x ++ ((Piece.span body).shadow ++ s)) ↔ HasSpan s := by
  constructor
  · intro spans
    by_contra spanless
    rw [← cutSpan?_eq_none_iff] at spanless
    have none := cutSpan?_append_eq_none (not_startsIn_shadow shut body s) spanless
    rw [List.append_assoc, cutSpan?_eq_none_iff] at none
    exact none spans
  · rintro ⟨before, body', after, rfl⟩
    exact ⟨x ++ (Piece.span body).shadow ++ before, body', after, by simp⟩

/-- Nor does it add braces that open. -/
theorem opening_infix_append_shadow_iff {x : List Char} (shut : ¬ Opens x) (body s : List Char) :
    opening <:+: x ++ ((Piece.span body).shadow ++ s) ↔ opening <:+: s := by
  constructor
  · rintro ⟨u, v, split⟩
    rw [List.append_assoc u, ← List.append_assoc x] at split
    obtain ⟨w, -, rfl⟩ := Text.exists_of_not_startsIn (not_startsIn_shadow shut body s) split.symm
      (List.prefix_append _ _)
    exact ⟨w, v, by simp⟩
  · intro occurs
    rw [← List.append_assoc]
    exact occurs.trans (List.suffix_append _ _).isInfix

/-! ## The pieces of a text -/

theorem mem_plainPiece_iff {s t : List Char} : .plain t ∈ plainPiece s ↔ t = s ∧ s ≠ [] := by
  cases s <;> simp [plainPiece]

theorem flatMap_shadow_plainPiece (s : List Char) : (plainPiece s).flatMap Piece.shadow = s := by
  cases s <;> simp [plainPiece, Piece.shadow]

theorem closesOnce_of_mem_pieces {s : List Char} {piece : Piece} (mem : piece ∈ pieces s) :
    piece.ClosesOnce := by
  have plain {t : List Char} (mem : piece ∈ plainPiece t) : piece.ClosesOnce := by
    cases piece with
    | plain _ => trivial
    | span body => cases t <;> simp [plainPiece] at mem
  fun_induction pieces s with
  | case1 s => exact plain mem
  | case2 s before body after cut ih =>
      rw [List.mem_append, List.mem_cons] at mem
      rcases mem with mem | rfl | mem
      · exact plain mem
      · exact (shut_of_cutSpan? cut).2
      · exact ih mem

/-- No plain piece of a text has a span. -/
theorem not_hasSpan_of_mem_pieces {s t : List Char} (mem : .plain t ∈ pieces s) : ¬ HasSpan t := by
  fun_induction pieces s with
  | case1 s spanless =>
      rw [(mem_plainPiece_iff.1 mem).1, ← cutSpan?_eq_none_iff]
      exact spanless
  | case2 s before body after cut ih =>
      rw [List.mem_append, List.mem_cons, mem_plainPiece_iff] at mem
      rcases mem with ⟨rfl, -⟩ | same | mem
      · rintro ⟨u, v, w, rfl⟩
        exact not_infix_of_cutSpan? cut ⟨u, v ++ closing ++ w, by simp [Piece.text]⟩
      · cases same
      · exact ih mem

/-- Braces open in the shadow of the pieces of a text exactly when they open in a plain piece. -/
theorem opening_infix_shadow_iff (s : List Char) :
    opening <:+: (pieces s).flatMap Piece.shadow ↔
      ∃ t, .plain t ∈ pieces s ∧ opening <:+: t := by
  fun_induction pieces s with
  | case1 s spanless =>
      rw [flatMap_shadow_plainPiece]
      constructor
      · intro occurs
        refine ⟨s, mem_plainPiece_iff.2 ⟨rfl, ?_⟩, occurs⟩
        rintro rfl
        exact absurd occurs (by decide)
      · rintro ⟨t, mem, occurs⟩
        rwa [(mem_plainPiece_iff.1 mem).1] at occurs
  | case2 s before body after cut ih =>
      rw [List.flatMap_append, flatMap_shadow_plainPiece, List.flatMap_cons,
        opening_infix_append_shadow_iff (shut_of_cutSpan? cut).1, ih]
      constructor
      · rintro ⟨t, mem, occurs⟩
        exact ⟨t, List.mem_append_right _ (List.mem_cons_of_mem _ mem), occurs⟩
      · rintro ⟨t, mem, occurs⟩
        rw [List.mem_append, List.mem_cons, mem_plainPiece_iff] at mem
        rcases mem with ⟨rfl, -⟩ | same | mem
        · exact absurd occurs (not_infix_of_cutSpan? cut)
        · cases same
        · exact ⟨t, mem, occurs⟩

/-- Braces close in the shadow of the pieces of a text exactly when they close in the text. -/
theorem closing_infix_shadow_iff (s : List Char) :
    closing <:+: (pieces s).flatMap Piece.shadow ↔ closing <:+: s := by
  rw [pieces]
  split
  · rw [flatMap_shadow_plainPiece]
  · rename_i before body after cut
    -- both have the braces that close the first span
    refine iff_of_true ?_ ?_
    · refine ⟨before ++ ['\x7b'], (pieces after).flatMap Piece.shadow, ?_⟩
      simp [flatMap_shadow_plainPiece, Piece.shadow]
    · rw [eq_append_of_cutSpan? cut]
      exact ⟨before ++ opening ++ body, after, by simp [Piece.text]⟩

/-! ## Texts on lines of their own -/

theorem hasSpan_iff {s : List Char} :
    HasSpan s ↔ ∃ x y, s = x ++ (opening ++ y) ∧ closing <:+: y := by
  constructor
  · rintro ⟨x, body, after, rfl⟩
    exact ⟨x, body ++ closing ++ after, by simp [Piece.text], body, after, rfl⟩
  · rintro ⟨x, _, rfl, body, after, rfl⟩
    exact ⟨x, body, after, by simp [Piece.text]⟩

/-- A span lies on one side of a character that is not a brace, or its braces lie on both sides. -/
theorem hasSpan_append_cons_iff {a b : List Char} {c : Char} (notOpening : c ∉ opening)
    (notClosing : c ∉ closing) :
    HasSpan (a ++ c :: b) ↔ HasSpan a ∨ HasSpan b ∨ (opening <:+: a ∧ closing <:+: b) := by
  simp only [hasSpan_iff]
  constructor
  · rintro ⟨x, y, whole, closes⟩
    rcases Text.exists_of_not_mem notOpening whole with ⟨y', rfl, rfl⟩ | ⟨x', -, rfl⟩
    · rcases (Text.infix_append_cons_iff notClosing).1 closes with closes | closes
      · exact .inl ⟨x, y', rfl, closes⟩
      · exact .inr (.inr ⟨⟨x, y', by simp⟩, closes⟩)
    · exact .inr (.inl ⟨x', y, rfl, closes⟩)
  · rintro (⟨x, y, rfl, closes⟩ | ⟨x, y, rfl, closes⟩ | ⟨⟨x, y, rfl⟩, closes⟩)
    · exact ⟨x, y ++ c :: b, by simp, closes.trans (List.prefix_append _ _).isInfix⟩
    · exact ⟨a ++ c :: x, y, by simp, closes⟩
    · refine ⟨x, y ++ c :: b, by simp, closes.trans ?_⟩
      exact ((List.suffix_cons c b).trans (List.suffix_append _ _)).isInfix

theorem hasSpan_cons_iff {s : List Char} {c : Char} (notOpening : c ∉ opening)
    (notClosing : c ∉ closing) : HasSpan (c :: s) ↔ HasSpan s := by
  have nothing : ¬ HasSpan [] := cutSpan?_eq_none_iff.1 rfl
  have split := hasSpan_append_cons_iff (a := []) (b := s) notOpening notClosing
  simpa [nothing, show ¬ opening <:+: [] by decide] using split

end Template

end UiMarkdown
