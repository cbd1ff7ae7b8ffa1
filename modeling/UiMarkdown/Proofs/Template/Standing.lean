import Mathlib.Data.List.Forall2
import UiMarkdown.Proofs.Template.Seam
import UiMarkdown.Proofs.Text.Trim

/-!
# Spans that stand in texts

Spans stand in a text when they are found in it one behind the other, and among texts
when each of them is found whole in one of these, in order.  Cutting a text into its
pieces tears no span, wherever it was read first: what stands in the text stands among
the pieces.
-/

namespace List.SublistForall₂

variable {α β : Type} {R : α → β → Prop} {as as' : List α} {bs bs' : List β}

theorem append (first : SublistForall₂ R as bs) (second : SublistForall₂ R as' bs') :
    SublistForall₂ R (as ++ as') (bs ++ bs') := by
  induction first with
  | @nil bs =>
      induction bs with
      | nil => exact second
      | cons b bs ih => exact .cons_right ih
  | cons related _ ih => exact .cons related ih
  | cons_right _ ih => exact .cons_right ih

theorem exists_of_append (related : SublistForall₂ R as (bs ++ bs')) :
    ∃ here later, as = here ++ later ∧ SublistForall₂ R here bs ∧ SublistForall₂ R later bs' := by
  induction bs generalizing as with
  | nil => exact ⟨[], as, rfl, .nil, related⟩
  | cons b bs ih =>
      cases related with
      | nil => exact ⟨[], [], rfl, .nil, .nil⟩
      | @cons a _ _ _ first rest =>
          obtain ⟨here, later, rfl, front, back⟩ := ih rest
          exact ⟨a :: here, later, rfl, .cons first front, back⟩
      | cons_right rest =>
          obtain ⟨here, later, rfl, front, back⟩ := ih rest
          exact ⟨here, later, rfl, .cons_right front, back⟩

end List.SublistForall₂

namespace UiMarkdown

namespace Template

/-- A span text whose first closing braces are those at its end. -/
def IsSpan (p : List Char) : Prop :=
  ∃ body, p = (Piece.span body).text ∧ ¬ Closes body

/-- Texts that are found in a text one behind the other. -/
def StandIn : List (List Char) → List Char → Prop
  | [], _ => True
  | p :: ps, s => ∃ before after, s = before ++ (p ++ after) ∧ StandIn ps after

/-- Texts that are found one behind the other among texts, each of them whole in one text. -/
def StandAmong : List (List Char) → List (List Char) → Prop
  | ps, [] => ps = []
  | ps, s :: more => ∃ here later, ps = here ++ later ∧ StandIn here s ∧ StandAmong later more

namespace IsSpan

variable {p : List Char}

theorem ne_nil (span : IsSpan p) : p ≠ [] := by
  obtain ⟨body, rfl, -⟩ := span
  simp [Piece.text, opening]

theorem hasSpan (span : IsSpan p) : HasSpan p := by
  obtain ⟨body, rfl, -⟩ := span
  exact ⟨[], body, [], by simp⟩

theorem exists_eq_concat (span : IsSpan p) : ∃ front, p = front ++ ['\x7d'] := by
  obtain ⟨body, rfl, -⟩ := span
  exact ⟨opening ++ body ++ ['\x7d'], by simp [Piece.text, closing]⟩

end IsSpan

theorem isSpan_of_mem_spanTexts {s p : List Char} (mem : p ∈ spanTexts s) : IsSpan p := by
  obtain ⟨piece, among, isText⟩ := List.mem_filterMap.1 mem
  cases piece with
  | plain t => cases isText
  | span body =>
      cases isText
      exact ⟨body, rfl, closesOnce_of_mem_pieces among⟩

/-! ## Standing in one text -/

namespace StandIn

variable {ps qs : List (List Char)} {s t : List Char}

theorem behind (stands : StandIn ps s) (front : List Char) : StandIn ps (front ++ s) := by
  cases ps with
  | nil => trivial
  | cons p ps =>
      obtain ⟨before, after, rfl, later⟩ := stands
      exact ⟨front ++ before, after, by simp, later⟩

theorem append (first : StandIn ps s) (second : StandIn qs t) : StandIn (ps ++ qs) (s ++ t) := by
  induction ps generalizing s with
  | nil => exact second.behind s
  | cons p ps ih =>
      obtain ⟨before, after, rfl, later⟩ := first
      exact ⟨before, after ++ t, by simp, ih later⟩

theorem infix_of_mem (stands : StandIn ps s) {p : List Char} (mem : p ∈ ps) : p <:+: s := by
  induction ps generalizing s with
  | nil => cases mem
  | cons q ps ih =>
      obtain ⟨before, after, rfl, later⟩ := stands
      rcases List.mem_cons.1 mem with rfl | mem
      · exact ⟨before, after, by simp⟩
      · rw [← List.append_assoc]
        exact (ih later mem).trans (List.suffix_append _ _).isInfix

/-- Where texts stand, ends of them do. -/
theorem mono (ends : List.SublistForall₂ (· <:+ ·) ps qs) (stands : StandIn qs s) :
    StandIn ps s := by
  induction ends generalizing s with
  | nil => trivial
  | cons related _ ih =>
      obtain ⟨x, rfl⟩ := related
      obtain ⟨before, after, rfl, later⟩ := stands
      exact ⟨before ++ x, after, by simp, ih later⟩
  | @cons_right q _ _ _ ih =>
      obtain ⟨before, after, rfl, later⟩ := stands
      rw [← List.append_assoc]
      exact (ih later).behind (before ++ q)

/-- Line ends behind the last span may be dropped. -/
theorem dropEnd (spans : ∀ p ∈ ps, IsSpan p) (stands : StandIn ps s) :
    StandIn ps (Text.dropEnd (· == '\n') s) := by
  induction ps generalizing s with
  | nil => trivial
  | cons p ps ih =>
      obtain ⟨before, after, rfl, later⟩ := stands
      obtain ⟨front, rfl⟩ := (spans p List.mem_cons_self).exists_eq_concat
      have kept : Text.dropEnd (· == '\n') ('\x7d' :: after) =
          '\x7d' :: Text.dropEnd (· == '\n') after :=
        Text.dropEnd_cons_of_not after (by decide)
      refine ⟨before, Text.dropEnd (· == '\n') after, ?_,
        ih (fun q mem => spans q (List.mem_cons_of_mem _ mem)) later⟩
      have whole : before ++ (front ++ ['\x7d'] ++ after) = (before ++ front) ++ '\x7d' :: after := by
        simp
      rw [whole, Text.dropEnd_append_of_ne_nil (by simp [kept]), kept]
      simp

end StandIn

/-! ## Standing among texts -/

namespace StandAmong

variable {ps qs texts others : List (List Char)}

theorem nil (texts : List (List Char)) : StandAmong [] texts := by
  induction texts with
  | nil => rfl
  | cons s more ih => exact ⟨[], [], rfl, trivial, ih⟩

theorem singleton {s : List Char} (stands : StandIn ps s) : StandAmong ps [s] :=
  ⟨ps, [], by simp, stands, rfl⟩

theorem standIn_of_singleton {s : List Char} (stand : StandAmong ps [s]) : StandIn ps s := by
  obtain ⟨here, later, rfl, stands, rfl⟩ := stand
  rwa [List.append_nil]

theorem append (first : StandAmong ps texts) (second : StandAmong qs others) :
    StandAmong (ps ++ qs) (texts ++ others) := by
  induction texts generalizing ps with
  | nil =>
      obtain rfl := first
      exact second
  | cons s more ih =>
      obtain ⟨here, later, rfl, stands, rest⟩ := first
      exact ⟨here, later ++ qs, by simp, stands, ih rest⟩

theorem behind (stand : StandAmong ps texts) (front : List (List Char)) :
    StandAmong ps (front ++ texts) :=
  (nil front).append stand

theorem split (stand : StandAmong ps (texts ++ others)) :
    ∃ here later, ps = here ++ later ∧ StandAmong here texts ∧ StandAmong later others := by
  induction texts generalizing ps with
  | nil => exact ⟨[], ps, rfl, rfl, stand⟩
  | cons s more ih =>
      obtain ⟨first, rest, rfl, stands, inner⟩ := stand
      obtain ⟨here, later, rfl, front, back⟩ := ih inner
      exact ⟨first ++ here, later, by simp, ⟨first, here, rfl, stands, front⟩, back⟩

theorem mono (ends : List.SublistForall₂ (· <:+ ·) ps qs) (stand : StandAmong qs texts) :
    StandAmong ps texts := by
  induction texts generalizing ps qs with
  | nil =>
      obtain rfl := stand
      cases ends
      rfl
  | cons s more ih =>
      obtain ⟨here, later, rfl, stands, rest⟩ := stand
      obtain ⟨here', later', rfl, front, back⟩ := ends.exists_of_append
      exact ⟨here', later', rfl, stands.mono front, ih back rest⟩

theorem exists_of_mem (stand : StandAmong ps texts) {p : List Char} (mem : p ∈ ps) :
    ∃ s ∈ texts, p <:+: s := by
  induction texts generalizing ps with
  | nil =>
      obtain rfl := stand
      cases mem
  | cons s more ih =>
      obtain ⟨here, later, rfl, stands, rest⟩ := stand
      rcases List.mem_append.1 mem with mem | mem
      · exact ⟨s, List.mem_cons_self, stands.infix_of_mem mem⟩
      · obtain ⟨t, among, inside⟩ := ih rest mem
        exact ⟨t, List.mem_cons_of_mem s among, inside⟩

theorem flatten (stand : StandAmong ps texts) : StandIn ps texts.flatten := by
  induction texts generalizing ps with
  | nil =>
      obtain rfl := stand
      trivial
  | cons s more ih =>
      obtain ⟨here, later, rfl, stands, rest⟩ := stand
      exact stands.append (ih rest)

theorem intercalate (stand : StandAmong ps texts) (separator : List Char) :
    StandIn ps (separator.intercalate texts) := by
  induction texts generalizing ps with
  | nil =>
      obtain rfl := stand
      trivial
  | cons s more ih =>
      obtain ⟨here, later, rfl, stands, rest⟩ := stand
      cases more with
      | nil =>
          obtain rfl := rest
          simpa using stands
      | cons t more =>
          have inner := (ih rest).behind separator
          simpa [List.intercalate] using stands.append inner

theorem dropEnd (spans : ∀ p ∈ ps, IsSpan p) (stand : StandAmong ps texts) :
    StandAmong ps (texts.map (Text.dropEnd (· == '\n'))) := by
  induction texts generalizing ps with
  | nil => exact stand
  | cons s more ih =>
      obtain ⟨here, later, rfl, stands, rest⟩ := stand
      rw [List.forall_mem_append] at spans
      exact ⟨here, later, rfl, stands.dropEnd spans.1, ih spans.2 rest⟩

theorem sublist (stand : StandAmong ps texts) (among : texts.Sublist others) :
    StandAmong ps others := by
  induction among generalizing ps with
  | slnil => exact stand
  | cons s _ ih => exact (ih stand).behind [s]
  | cons_cons s _ ih =>
      obtain ⟨here, later, rfl, stands, rest⟩ := stand
      exact ⟨here, later, rfl, stands, ih rest⟩

/-- No span stands in an empty text. -/
theorem filter_nonempty (spans : ∀ p ∈ ps, IsSpan p) (stand : StandAmong ps texts) :
    StandAmong ps (texts.filter fun text => !text.isEmpty) := by
  induction texts generalizing ps with
  | nil => exact stand
  | cons s more ih =>
      obtain ⟨here, later, rfl, stands, rest⟩ := stand
      rw [List.forall_mem_append] at spans
      have inner := ih spans.2 rest
      cases s with
      | cons c s => exact ⟨here, later, rfl, stands, inner⟩
      | nil =>
          cases here with
          | nil => exact inner
          | cons p here =>
              have empty := List.infix_nil.1 (stands.infix_of_mem List.mem_cons_self)
              exact absurd empty (spans.1 p List.mem_cons_self).ne_nil

end StandAmong

/-- The spans of a text stand among its pieces. -/
theorem standAmong_pieces (s : List Char) : StandAmong (spanTexts s) ((pieces s).map Piece.text) := by
  rw [spanTexts]
  induction pieces s with
  | nil => rfl
  | cons piece pieces ih =>
      cases piece with
      | plain t => exact ih.behind [t]
      | span body => exact ⟨[(Piece.span body).text], _, rfl, ⟨[], [], by simp, trivial⟩, ih⟩

/-- The spans of a text stand in it. -/
theorem standIn_spanTexts (s : List Char) : StandIn (spanTexts s) s := by
  have stands := (standAmong_pieces s).flatten
  rwa [← List.flatMap_def, flatMap_text_pieces] at stands

/-! ## Cutting tears no span -/

theorem Closes.of_suffix {a b : List Char} (closes : Closes b) : Closes (a ++ b) := by
  rw [Closes, List.append_assoc]
  exact closes.trans (List.suffix_append a _).isInfix

/-- Of two spans that close at the same braces, the one that opens later is the end of the other. -/
theorem suffix_text_of_suffix {body inner w : List Char}
    (ends : opening ++ body = w ++ (opening ++ inner)) :
    inner <:+ body ∧ (Piece.span inner).text <:+ (Piece.span body).text := by
  constructor
  · have long := congrArg List.length ends
    simp only [List.length_append] at long
    refine List.suffix_of_suffix_length_le ?_ (List.suffix_append opening body) (by omega)
    exact ⟨w ++ opening, by simp [ends]⟩
  · refine ⟨w, ?_⟩
    rw [Piece.text, Piece.text, ends]
    simp

/-- A text starts with one span only. -/
theorem eq_of_span_append {body body' v v' : List Char} (once : ¬ Closes body)
    (once' : ¬ Closes body')
    (same : (Piece.span body).text ++ v = (Piece.span body').text ++ v') : body = body' ∧ v = v' := by
  have empty : ¬ Opens [] := by rw [Opens]; decide
  have cut := cutSpan?_append empty once v
  rw [List.nil_append, same, ← List.nil_append (_ ++ v'), cutSpan?_append empty once' v'] at cut
  cases cut
  exact ⟨rfl, rfl⟩

/-- A span stands behind the first one of the text, or the first one ends with it. -/
theorem IsSpan.behind_or_suffix {p u v before body after : List Char} (span : IsSpan p)
    (cut : cutSpan? (u ++ (p ++ v)) = some (before, body, after)) :
    (∃ m, after = m ++ (p ++ v)) ∨ (v = after ∧ p <:+ (Piece.span body).text) := by
  obtain ⟨body', rfl, once'⟩ := span
  obtain ⟨shut, once⟩ := shut_of_cutSpan? cut
  have whole : before ++ (opening ++ body) ++ (closing ++ after) =
      u ++ ((Piece.span body').text ++ v) := by
    rw [eq_append_of_cutSpan? cut]
    simp [Piece.text]
  -- braces that open are none of the two that close
  rcases List.append_eq_append_iff.1 whole with ⟨k, rfl, rest⟩ | ⟨k, front, rest⟩
  · rcases k with _ | ⟨c, _ | ⟨d, m⟩⟩
    · simp [closing, Piece.text, opening] at rest
    · simp [closing, Piece.text, opening] at rest
    · obtain ⟨-, rest⟩ := List.cons.inj rest
      obtain ⟨-, rest⟩ := List.cons.inj rest
      exact .inl ⟨m, rest⟩
  · rcases k with _ | ⟨c, _ | ⟨d, inner⟩⟩
    · simp [closing, Piece.text, opening] at rest
    · simp [closing, Piece.text, opening] at rest
    · obtain ⟨rfl, more⟩ := List.cons.inj rest
      obtain ⟨rfl, -⟩ := List.cons.inj more
      have rest : (Piece.span body').text ++ v = (Piece.span inner).text ++ after := by
        simpa [Piece.text, opening] using rest
      -- the first braces that open are those of the first span
      obtain ⟨w, -, tail⟩ : ∃ w, u = before ++ w ∧ opening ++ body = w ++ (opening ++ inner) :=
        Text.exists_of_not_startsIn (Text.StartsIn.pair_iff.not.2 shut) front
          (List.prefix_append opening inner)
      obtain ⟨⟨x, rfl⟩, ends⟩ := suffix_text_of_suffix tail
      obtain ⟨rfl, rfl⟩ := eq_of_span_append once' (fun closes => once closes.of_suffix) rest
      exact .inr ⟨rfl, ends⟩

/-- The spans that stand in a text are ends of spans of the text, in order. -/
theorem StandIn.sublistForall₂ {ps : List (List Char)} {s : List Char} (spans : ∀ p ∈ ps, IsSpan p)
    (stands : StandIn ps s) : List.SublistForall₂ (· <:+ ·) ps (spanTexts s) := by
  induction size : s.length using Nat.strongRecOn generalizing ps s with
  | _ n ih =>
      cases ps with
      | nil => exact .nil
      | cons p ps =>
          obtain ⟨span, others⟩ := List.forall_mem_cons.1 spans
          obtain ⟨u, v, rfl, later⟩ := stands
          cases cut : cutSpan? (u ++ (p ++ v)) with
          | none =>
              rw [cutSpan?_eq_none_iff] at cut
              exact absurd (span.hasSpan.of_infix ⟨u, v, by simp⟩) cut
          | some found =>
              obtain ⟨before, body, after⟩ := found
              have shorter := size ▸ length_lt_of_cutSpan? cut
              rw [spanTexts_of_cutSpan? cut]
              rcases span.behind_or_suffix cut with ⟨m, rfl⟩ | ⟨rfl, ends⟩
              · exact .cons_right (ih _ shorter spans ⟨m, v, rfl, later⟩ rfl)
              · exact .cons ends (ih _ shorter others later rfl)

theorem StandAmong.sublistForall₂ {ps texts : List (List Char)} (spans : ∀ p ∈ ps, IsSpan p)
    (stand : StandAmong ps texts) : List.SublistForall₂ (· <:+ ·) ps (texts.flatMap spanTexts) := by
  induction texts generalizing ps with
  | nil =>
      obtain rfl := stand
      exact .nil
  | cons s more ih =>
      obtain ⟨here, later, rfl, stands, rest⟩ := stand
      rw [List.forall_mem_append] at spans
      exact (stands.sublistForall₂ spans.1).append (ih spans.2 rest)

/-- Cutting a text into its pieces tears no span that stands in it. -/
theorem StandIn.pieces {ps : List (List Char)} {s : List Char} (spans : ∀ p ∈ ps, IsSpan p)
    (stands : StandIn ps s) : StandAmong ps ((pieces s).map Piece.text) :=
  (standAmong_pieces s).mono (stands.sublistForall₂ spans)

end Template

end UiMarkdown
