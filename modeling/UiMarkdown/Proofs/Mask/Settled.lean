import UiMarkdown.Proofs.Mask.Lossless
import UiMarkdown.Proofs.Mask.Spread
import UiMarkdown.Proofs.Template.Piece

/-!
# Masking what was put together from pieces

Pieces may be masked one by one and then written, or written and then masked as
one text.  Both give the same exactly when the written text has no span but those
of the pieces, whatever the plain text was spread out to in between.
-/

namespace UiMarkdown

namespace Mask

open Template (Piece HasSpan)

/-! ## Masking the text of pieces -/

theorem maskPieces_append (stem : List Char) (n : Nat) (ps qs : List Piece) :
    maskPieces stem n (ps ++ qs) =
      ((maskPieces stem n ps).1 ++
          (maskPieces stem (n + (maskPieces stem n ps).2.length) qs).1,
        (maskPieces stem n ps).2 ++
          (maskPieces stem (n + (maskPieces stem n ps).2.length) qs).2) := by
  induction ps generalizing n with
  | nil => simp [maskPieces]
  | cons piece ps ih =>
      cases piece with
      | plain s => simp [maskPieces_plain, ih]
      | span body => simp [maskPieces_span, ih, Nat.add_assoc, Nat.add_comm 1]

/-- Where braces are open before a span, masking the text does not give the token of this span. -/
theorem maskText_ne_of_opens (growths n k : Nat) {x : List Char} (opens : Template.Opens x)
    (body rest masked : List Char) :
    (maskText (stemOf growths) n (x ++ ((Piece.span body).text ++ rest))).1 ≠
      x ++ (token (stemOf growths) k ++ masked) := by
  have braces (body : List Char) :
      (Piece.span body).text = '\x7b' :: '\x7b' :: (body ++ Template.closing) := by
    simp [Piece.text, Template.opening]
  obtain ⟨tail, shape, -⟩ := token_stemOf_eq_cons growths n
  cases cut : Template.cutSpan? (x ++ ((Piece.span body).text ++ rest)) with
  | none =>
      obtain ⟨u, v, split⟩ := opens
      refine absurd (Template.hasSpan_iff.2
        ⟨u, v ++ '\x7b' :: (body ++ Template.closing) ++ rest, ?_, ?_⟩)
        (Template.cutSpan?_eq_none_iff.1 cut)
      · have longer := congrArg (· ++ '\x7b' :: (body ++ Template.closing ++ rest)) split
        simpa [braces] using longer.symm
      · exact ⟨v ++ '\x7b' :: body, rest, by simp⟩
  | some found =>
      obtain ⟨before, body', after⟩ := found
      obtain ⟨shut, -⟩ := Template.shut_of_cutSpan? cut
      have whole := Template.eq_append_of_cutSpan? cut
      rw [maskText_of_cutSpan? _ _ cut]
      intro same
      rw [List.append_assoc, braces, braces] at whole
      rcases List.append_eq_append_iff.1 whole with ⟨m, rfl, later⟩ | ⟨m, rfl, later⟩
      · -- the first span would start behind the braces that are open
        apply shut
        cases m with
        | nil => exact (List.append_nil x).symm ▸ opens
        | cons c m =>
            obtain ⟨rfl, -⟩ := List.cons.inj later
            exact opens.trans ⟨[], m ++ ['\x7b'], by simp⟩
      · cases m with
        | nil => exact shut (List.append_nil before ▸ opens)
        | cons c m =>
            obtain ⟨rfl, -⟩ := List.cons.inj later
            rw [List.append_assoc, List.append_right_inj, shape] at same
            cases same

/--
Masking the text of some pieces gives their own spans and no others, exactly when
no span shows in their shadow.
-/
theorem maskText_eq_maskPieces_iff (growths n : Nat) (x : List Char) (ps : List Piece)
    (once : ∀ piece ∈ ps, piece.ClosesOnce) :
    maskText (stemOf growths) n (x ++ ps.flatMap Piece.text) =
        (x ++ (maskPieces (stemOf growths) n ps).1, (maskPieces (stemOf growths) n ps).2) ↔
      ¬ HasSpan (x ++ ps.flatMap Piece.shadow) := by
  induction ps generalizing n x with
  | nil =>
      rw [List.flatMap_nil, List.flatMap_nil, List.append_nil, ← Template.cutSpan?_eq_none_iff,
        maskPieces, List.append_nil]
      constructor
      · intro settled
        cases cut : Template.cutSpan? x with
        | none => rfl
        | some found =>
            obtain ⟨before, body, after⟩ := found
            rw [maskText_of_cutSpan? _ _ cut] at settled
            cases (Prod.mk.inj settled).2
      · exact maskText_of_cutSpan?_eq_none _ _
  | cons piece ps ih =>
      rw [List.forall_mem_cons] at once
      cases piece with
      | plain s =>
          rw [maskPieces_plain, List.flatMap_cons, List.flatMap_cons, Piece.text, Piece.shadow,
            ← List.append_assoc, ← List.append_assoc, ← List.append_assoc]
          exact ih n (x ++ s) once.2
      | span body =>
          rw [maskPieces_span, List.flatMap_cons, List.flatMap_cons]
          by_cases opens : Template.Opens x
          · -- the braces before the span and those that close it make another span
            refine iff_of_false ?_ (not_not_intro ?_)
            · intro settled
              exact maskText_ne_of_opens growths n n opens body _ _ (Prod.mk.inj settled).1
            · obtain ⟨u, v, split⟩ := opens
              refine Template.hasSpan_iff.2
                ⟨u, v ++ Template.closing ++ ps.flatMap Piece.shadow, ?_, ?_⟩
              · have longer := congrArg (· ++ (Template.closing ++ ps.flatMap Piece.shadow)) split
                simpa [Piece.shadow] using longer.symm
              · exact ⟨v, ps.flatMap Piece.shadow, rfl⟩
          · have rest := ih (n + 1) [] once.2
            simp only [List.nil_append] at rest
            rw [Template.hasSpan_append_shadow_iff opens, ← rest,
              maskText_of_cutSpan? _ _ (Template.cutSpan?_append opens once.1 _)]
            simp only [List.append_cancel_left_eq, List.cons.injEq, true_and, Prod.ext_iff]

/-- The shadow of the pieces of a text has no span. -/
theorem not_hasSpan_shadow (s : List Char) :
    ¬ HasSpan ((Template.pieces s).flatMap Piece.shadow) := by
  have settled := maskText_eq_maskPieces_iff 0 0 [] (Template.pieces s)
    fun _ mem => Template.closesOnce_of_mem_pieces mem
  rw [List.nil_append, List.nil_append, List.nil_append, Template.flatMap_text_pieces] at settled
  exact settled.1 rfl

/-! ## Pieces that are spread out -/

/-- The spans of pieces stay when the plain text around them is spread out. -/
theorem exists_pieces_of_spread (growths n : Nat) (x w : List Char) (ps : List Piece)
    (spread : Spread (x ++ (maskPieces (stemOf growths) n ps).1) w) :
    ∃ qs, maskPieces (stemOf growths) n qs = (w, (maskPieces (stemOf growths) n ps).2) ∧
      (∀ body, .span body ∈ qs → .span body ∈ ps) ∧
      ∀ f : Piece → List Char, (∀ s, f (.plain s) = s) →
        Spread (x ++ ps.flatMap f) (qs.flatMap f) := by
  induction ps generalizing n x w with
  | nil =>
      refine ⟨[.plain w], ?_, ?_, fun f plain => ?_⟩
      · rw [maskPieces_plain]
        simp [maskPieces]
      · simp
      · simpa [maskPieces, plain] using spread
  | cons piece ps ih =>
      cases piece with
      | plain s =>
          rw [maskPieces_plain, ← List.append_assoc] at spread
          obtain ⟨qs, masked, spans, spreads⟩ := ih n (x ++ s) w spread
          refine ⟨qs, masked, fun body mem => List.mem_cons_of_mem _ (spans body mem),
            fun f plain => ?_⟩
          rw [List.flatMap_cons, plain, ← List.append_assoc]
          exact spreads f plain
      | span body =>
          rw [maskPieces_span] at spread
          obtain ⟨tail, shape, -⟩ := token_stemOf_eq_cons growths n
          have kept : ∀ c ∈ 'H' :: tail, isKept c = true := fun c mem =>
            isKept_of_isAlphanum (isAlphanum_of_mem_token (shape ▸ mem))
          rw [shape] at spread
          obtain ⟨front, back, rfl, spread', rest⟩ := spread.exists_of_forall_kept kept
          obtain ⟨qs, masked, spans, spreads⟩ := ih (n + 1) [] back rest
          refine ⟨.plain front :: .span body :: qs, ?_, ?_, fun f plain => ?_⟩
          · rw [maskPieces_plain, maskPieces_span, masked, ← shape]
            rfl
          · intro body' mem
            simp only [List.mem_cons, reduceCtorEq, false_or] at mem
            exact List.mem_cons.2 (mem.imp_right (spans body'))
          · rw [List.flatMap_cons, List.flatMap_cons, List.flatMap_cons, plain]
            exact spread'.append ((Spread.refl _).append (spreads f plain))

end Mask

end UiMarkdown
