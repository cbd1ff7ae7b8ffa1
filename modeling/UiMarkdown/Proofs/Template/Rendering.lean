import Mathlib.Data.List.Chain
import UiMarkdown.Proofs.Template.Sign

/-!
# What a rendered template shows

Rendering a template item by item keeps the signs outside of its spans and gives the
characters of the text of each expression.  The escapes among these signs are guarded
until the end, and guards are then taken back in the whole text, wherever their
characters come from.  The result is what the signs show exactly when no character of
a guard meets a second one: in the template, in the text of an expression, or where
the two adjoin.
-/

namespace UiMarkdown

namespace Scope

open Template

variable (scope : Scope) (filters : FilterTable)

/-! ## Pieces -/

theorem flatMap_pieceText_plainPiece (s : List Char) :
    (plainPiece s).flatMap (scope.pieceText filters) = s := by
  cases s <;> simp [plainPiece, pieceText]

/-- A text is kept when it has no span. -/
theorem flatMap_pieceText_of_spanless {s : List Char} (spanless : cutSpan? s = none) :
    (pieces s).flatMap (scope.pieceText filters) = s := by
  rw [pieces]
  split
  · exact scope.flatMap_pieceText_plainPiece filters s
  · rename_i found
    rw [spanless] at found
    cases found

/-- What stands before a span is kept, and the text of the body takes its place. -/
theorem flatMap_pieceText_of_cutSpan? {s before body after : List Char}
    (cut : cutSpan? s = some (before, body, after)) :
    (pieces s).flatMap (scope.pieceText filters) =
      before ++ ((scope.expression? filters body).getD [] ++
        (pieces after).flatMap (scope.pieceText filters)) := by
  rw [pieces]
  split
  · rename_i spanless
    rw [cut] at spanless
    cases spanless
  · rename_i found
    rw [cut] at found
    cases found
    rw [List.flatMap_append, flatMap_pieceText_plainPiece, List.flatMap_cons]
    rfl

/-- A text in which no span starts is kept. -/
theorem flatMap_pieceText_append {a s : List Char} (apart : ¬ Text.StartsIn opening a s) :
    (pieces (a ++ s)).flatMap (scope.pieceText filters) =
      a ++ (pieces s).flatMap (scope.pieceText filters) := by
  have cut : cutSpan? (a ++ s) =
      (cutSpan? s).map fun (before, body, after) => (a ++ before, body, after) := by
    rw [cutSpan?, cutSpan?, Text.cutOn?_append_of_not_startsIn apart]
    cases Text.cutOn? opening s with
    | none => rfl
    | some found =>
        obtain ⟨before, inside⟩ := found
        dsimp only [Option.map_some]
        cases Text.cutOn? closing inside <;> rfl
  cases found : cutSpan? s with
  | none =>
      rw [found] at cut
      rw [scope.flatMap_pieceText_of_spanless filters cut,
        scope.flatMap_pieceText_of_spanless filters found]
  | some parts =>
      obtain ⟨before, body, after⟩ := parts
      rw [found] at cut
      rw [scope.flatMap_pieceText_of_cutSpan? filters cut,
        scope.flatMap_pieceText_of_cutSpan? filters found, List.append_assoc]

/-! ## Items -/

/-- The signs of an item when it is rendered: a span gives the characters of its text. -/
def itemSigns (read : List Sign → List Char) : Item → List Sign
  | .plain sign => [sign]
  | .span body => ((scope.expression? filters (read body)).getD []).map .char

/--
The signs of a rendered template: those outside of its spans, and the characters of
the texts of its expressions.
-/
def written (read : List Sign → List Char) (template : List Char) : List Sign :=
  (items (signs template)).flatMap (scope.itemSigns filters read)

/-- Only the texts of the expressions count. -/
theorem written_congr {read other : List Sign → List Char} {template : List Char}
    (agree : ∀ body, .span body ∈ items (signs template) →
      scope.expression? filters (read body) = scope.expression? filters (other body)) :
    scope.written filters read template = scope.written filters other template := by
  apply List.flatMap_congr
  intro item mem
  cases item with
  | plain sign => rfl
  | span body => rw [itemSigns, itemSigns, agree body mem]

/-- The pieces of a guarded template are its items, guarded. -/
theorem flatMap_pieceText_guarded (signs : List Sign) :
    (pieces (signs.flatMap Sign.guarded)).flatMap (scope.pieceText filters) =
      ((items signs).flatMap
        (scope.itemSigns filters (·.flatMap Sign.guarded))).flatMap Sign.guarded := by
  have opens (s : List Char) : Text.cutOn? opening (opening ++ s) = some ([], s) := by
    simp [opening, Text.cutOn?, List.isPrefixOf?]
  fun_induction items signs with
  | case1 rest body after cut ih =>
      have closes := cutOn?_closing_flatMap_guarded rest
      rw [cut] at closes
      have found : cutSpan? (opening ++ rest.flatMap Sign.guarded) =
          some ([], body.flatMap Sign.guarded, after.flatMap Sign.guarded) := by
        rw [cutSpan?, opens]
        dsimp only
        rw [closes]
        rfl
      change (pieces (opening ++ rest.flatMap Sign.guarded)).flatMap _ = _
      rw [scope.flatMap_pieceText_of_cutSpan? filters found, ih, List.flatMap_cons,
        List.flatMap_append, itemSigns, flatMap_map_char fun _ => rfl]
      rfl
  | case2 rest cut =>
      have closes := cutOn?_closing_flatMap_guarded rest
      rw [cut] at closes
      have spanless : cutSpan? (opening ++ rest.flatMap Sign.guarded) = none := by
        rw [cutSpan?, opens]
        dsimp only
        rw [closes]
        rfl
      change (pieces (opening ++ rest.flatMap Sign.guarded)).flatMap _ = _
      rw [scope.flatMap_pieceText_of_spanless filters spanless, List.flatMap_map]
      simp [itemSigns, Sign.guarded, opening]
  | case3 sign rest apart ih =>
      have front : ¬ Text.StartsIn opening sign.guarded (rest.flatMap Sign.guarded) :=
        not_startsIn_guarded (by decide) apart
      rw [List.flatMap_cons, scope.flatMap_pieceText_append filters front, ih, List.flatMap_cons,
        List.flatMap_append, itemSigns, List.flatMap_singleton]
  | case4 => exact scope.flatMap_pieceText_of_spanless filters rfl

/-- A template is rendered to its signs, guarded, and then the guards are taken back. -/
theorem interpolate_eq_releaseEscapes (template : List Char) :
    scope.interpolate filters template = releaseEscapes
      ((scope.written filters (·.flatMap Sign.guarded) template).flatMap Sign.guarded) := by
  rw [interpolate, guardEscapes_eq_flatMap, flatMap_pieceText_guarded]
  rfl

end Scope

/-! ## Guards that are taken back -/

namespace Template

def isGuard (c : Char) : Bool :=
  c == '\uE000' || c == '\uE001'

/-- A sign makes no guard with the first character of the sign behind it. -/
def Sign.Apart : Sign → Sign → Prop
  | .char c, next => isGuard c = true → next.guarded.head? ≠ some c
  | _, _ => True

instance : DecidableRel Sign.Apart
  | .char c, next =>
      inferInstanceAs (Decidable (isGuard c = true → next.guarded.head? ≠ some c))
  | .opening, _ | .closing, _ => isTrue trivial

end Template

namespace Scope

open Template

theorem guard_prefix_iff {c : Char} {s : List Char} :
    (openingGuard <+: c :: s ∨ closingGuard <+: c :: s) ↔ isGuard c = true ∧ s.head? = some c := by
  have pair (b : Char) : [b, b] <+: c :: s ↔ c = b ∧ s.head? = some c := by
    rw [List.cons_prefix_cons, eq_comm (a := b)]
    apply and_congr_right
    rintro rfl
    cases s <;> simp [eq_comm]
  rw [openingGuard, closingGuard, pair, pair, isGuard, Bool.or_eq_true, beq_iff_eq, beq_iff_eq,
    or_and_right]

theorem releaseEscapes_openingGuard_append (s : List Char) :
    releaseEscapes (openingGuard ++ s) = opening ++ releaseEscapes s := by
  have guard : openingGuard ≠ [] := List.cons_ne_nil _ _
  rw [releaseEscapes, Text.replace_append opening guard, opening, List.cons_append,
    List.cons_append, List.nil_append, Text.replace_cons _ (by simp [closingGuard]),
    Text.replace_cons _ (by simp [closingGuard])]
  rfl

theorem releaseEscapes_closingGuard_append (s : List Char) :
    releaseEscapes (closingGuard ++ s) = closing ++ releaseEscapes s := by
  have guard : closingGuard ≠ [] := List.cons_ne_nil _ _
  have inner : Text.replace openingGuard opening (closingGuard ++ s) =
      closingGuard ++ Text.replace openingGuard opening s := by
    rw [closingGuard, List.cons_append, List.cons_append, List.nil_append,
      Text.replace_cons _ (by simp [openingGuard]), Text.replace_cons _ (by simp [openingGuard])]
    rfl
  rw [releaseEscapes, inner, Text.replace_append closing guard]
  rfl

/-- A character at which no guard starts is kept. -/
theorem releaseEscapes_cons {c : Char} {s : List Char} (noOpening : ¬ openingGuard <+: c :: s)
    (noClosing : ¬ closingGuard <+: c :: s) : releaseEscapes (c :: s) = c :: releaseEscapes s := by
  have brace : opening.head? = some '\x7b' := rfl
  have kept : ¬ closingGuard <+: c :: Text.replace openingGuard opening s := by
    rintro ⟨more, split⟩
    obtain ⟨rfl, starts⟩ := List.cons.inj split
    obtain ⟨rest, rfl, -⟩ := Text.exists_of_replace_eq_cons brace (by decide) starts.symm
    exact noClosing ⟨rest, rfl⟩
  rw [releaseEscapes, Text.replace_cons _ noOpening, Text.replace_cons _ kept]
  rfl

/-- A character at which a guard starts is not kept. -/
theorem releaseEscapes_cons_ne {c : Char} {s t : List Char}
    (guards : openingGuard <+: c :: s ∨ closingGuard <+: c :: s) :
    releaseEscapes (c :: s) ≠ c :: t := by
  intro same
  rcases guards with ⟨more, split⟩ | ⟨more, split⟩
  · rw [← split, releaseEscapes_openingGuard_append] at same
    obtain rfl := (List.cons.inj same).1
    exact absurd (List.cons.inj split).1 (by decide)
  · rw [← split, releaseEscapes_closingGuard_append] at same
    obtain rfl := (List.cons.inj same).1
    exact absurd (List.cons.inj split).1 (by decide)

/-- Taking guards back shows the signs exactly when only escapes are guarded. -/
theorem releaseEscapes_flatMap_guarded_iff {signs : List Sign} :
    releaseEscapes (signs.flatMap Sign.guarded) = signs.flatMap Sign.shown ↔
      signs.IsChain Sign.Apart := by
  induction signs with
  | nil => exact iff_of_true rfl .nil
  | cons sign rest ih =>
      rw [List.flatMap_cons, List.flatMap_cons, List.isChain_cons, ← ih]
      cases sign with
      | opening =>
          rw [Sign.guarded, releaseEscapes_openingGuard_append, Sign.shown, List.append_right_inj]
          exact (and_iff_right fun _ _ => trivial).symm
      | closing =>
          rw [Sign.guarded, releaseEscapes_closingGuard_append, Sign.shown, List.append_right_inj]
          exact (and_iff_right fun _ _ => trivial).symm
      | char c =>
          have head : (rest.flatMap Sign.guarded).head? = rest.head?.bind (·.guarded.head?) := by
            cases rest with
            | nil => rfl
            | cons next more => cases next <;> rfl
          have apart : (∀ next ∈ rest.head?, Sign.Apart (.char c) next) ↔
              ¬ (openingGuard <+: c :: rest.flatMap Sign.guarded ∨
                closingGuard <+: c :: rest.flatMap Sign.guarded) := by
            rw [guard_prefix_iff, head]
            cases rest.head? <;> simp [Sign.Apart]
          rw [apart, Sign.guarded, Sign.shown, List.singleton_append, List.singleton_append]
          by_cases guards : openingGuard <+: c :: rest.flatMap Sign.guarded ∨
              closingGuard <+: c :: rest.flatMap Sign.guarded
          · exact iff_of_false (releaseEscapes_cons_ne guards) fun both => both.1 guards
          · obtain ⟨noOpening, noClosing⟩ := not_or.1 guards
            rw [releaseEscapes_cons noOpening noClosing, List.cons_inj_right, and_iff_right guards]

/-- Characters are apart exactly when they make no guard. -/
theorem isChain_map_char_iff {s : List Char} :
    (s.map Sign.char).IsChain Sign.Apart ↔ ¬ openingGuard <:+: s ∧ ¬ closingGuard <:+: s := by
  induction s with
  | nil => exact iff_of_true .nil (by decide)
  | cons c rest ih =>
      have apart : (∀ next ∈ (rest.map Sign.char).head?, Sign.Apart (.char c) next) ↔
          ¬ (openingGuard <+: c :: rest ∨ closingGuard <+: c :: rest) := by
        rw [guard_prefix_iff, List.head?_map]
        cases rest.head? <;> simp [Sign.Apart, Sign.guarded]
      rw [List.map_cons, List.isChain_cons, ih, apart, List.infix_cons_iff, List.infix_cons_iff]
      tauto

theorem releaseEscapes_eq_self_iff {s : List Char} :
    releaseEscapes s = s ↔ ¬ openingGuard <:+: s ∧ ¬ closingGuard <:+: s := by
  have chain : releaseEscapes ((s.map Sign.char).flatMap Sign.guarded) =
      (s.map Sign.char).flatMap Sign.shown ↔ (s.map Sign.char).IsChain Sign.Apart :=
    releaseEscapes_flatMap_guarded_iff
  rw [flatMap_map_char fun _ => rfl, flatMap_map_char fun _ => rfl] at chain
  rw [chain, isChain_map_char_iff]

/-! ## Templates -/

variable (scope : Scope) (filters : FilterTable)

/-- A template without braces that open and without escapes has nothing to be replaced. -/
theorem interpolate_eq_releaseEscapes_of_absent {template : List Char}
    (noOpening : ¬ opening <:+: template) (noClosing : ¬ ('\\' :: closing) <:+: template) :
    scope.interpolate filters template = releaseEscapes template := by
  have noEscape : ¬ ('\\' :: opening) <:+: template := by
    intro occurs
    exact noOpening ((List.suffix_cons '\\' opening).isInfix.trans occurs)
  have spanless : cutSpan? template = none := by
    rw [cutSpan?, Text.cutOn?_eq_none_iff.2 noOpening]
  rw [interpolate, guardEscapes, Text.replace_of_absent _ noEscape,
    Text.replace_of_absent _ noClosing, flatMap_pieceText_of_spanless scope filters spanless]

/--
The items of a template make it up.  Where no expression looks at the guards of the
escapes in its body, the template is rendered to what stands outside of its spans and
the texts of its expressions, escapes without their backslash, exactly when no other
characters look like a guard.  A template without braces that open and without escapes
is rendered to itself exactly when it has no guard.
-/
theorem interpolate_in_place (template : List Char) :
    (items (signs template)).flatMap Item.source = template ∧
    ((∀ body, .span body ∈ items (signs template) →
        scope.expression? filters (body.flatMap Sign.guarded) =
          scope.expression? filters (body.flatMap Sign.source)) →
      (scope.interpolate filters template =
          (scope.written filters (·.flatMap Sign.source) template).flatMap Sign.shown ↔
        (scope.written filters (·.flatMap Sign.source) template).IsChain Sign.Apart)) ∧
    (¬ opening <:+: template → ¬ ('\\' :: closing) <:+: template →
      (scope.interpolate filters template = template ↔
        ¬ openingGuard <:+: template ∧ ¬ closingGuard <:+: template)) := by
  refine ⟨?_, ?_, ?_⟩
  · rw [flatMap_source_items, flatMap_source_signs]
  · intro agree
    rw [interpolate_eq_releaseEscapes, ← scope.written_congr filters agree]
    exact releaseEscapes_flatMap_guarded_iff
  · intro noOpening noClosing
    rw [scope.interpolate_eq_releaseEscapes_of_absent filters noOpening noClosing]
    exact releaseEscapes_eq_self_iff

/--
A value with braces, an escape and a character of a guard is inserted as it is, a
fallback with an escape is not reached, and single characters of guards stay.
-/
theorem interpolate_in_place_of_escapes :
    let scope : Scope := ⟨[("a", .str "\x7b\x7b b \x7d\x7d \\\x7b\x7b \uE000")], []⟩
    let template := "\\\x7b\x7b\x7b\x7ba||'\\\x7d\x7d'\x7d\x7d\\\x7d\x7d\uE001".toList
    let other := "\uE000 \x7b \x7d\x7d \uE001".toList
    scope.interpolate .empty template =
        "\x7b\x7b\x7b\x7b b \x7d\x7d \\\x7b\x7b \uE000\x7d\x7d\uE001".toList ∧
      scope.interpolate .empty other = other := by
  intro scope template other
  obtain ⟨-, rendered, -⟩ := scope.interpolate_in_place .empty template
  obtain ⟨-, -, kept⟩ := scope.interpolate_in_place .empty other
  constructor
  · have read : items (signs template) = [.plain .opening,
        .span [.char 'a', .char '|', .char '|', .char '\'', .closing, .char '\''],
        .plain .closing, .plain (.char '\uE001')] := by
      decide +kernel
    have agree : ∀ body, .span body ∈ items (signs template) →
        scope.expression? .empty (body.flatMap Sign.guarded) =
          scope.expression? .empty (body.flatMap Sign.source) := by
      intro body mem
      obtain rfl : body = [.char 'a', .char '|', .char '|', .char '\'', .closing, .char '\''] := by
        simpa [read] using mem
      decide +kernel
    rw [(rendered agree).2 (by decide +kernel)]
    decide +kernel
  · exact (kept (by decide +kernel) (by decide +kernel)).2 (by decide +kernel)

/-- A value that looks like a guard is taken for one. -/
theorem not_interpolate_in_place_of_guard :
    let scope : Scope := ⟨[("a", .str "\uE000\uE000")], []⟩
    let template := "\x7b\x7b a \x7d\x7d".toList
    scope.expression? .empty " a ".toList = some "\uE000\uE000".toList ∧
      scope.interpolate .empty template = "\x7b\x7b".toList ∧
      ¬ ∀ (scope : Scope) (filters : FilterTable) (template : List Char),
        scope.interpolate filters template =
          (scope.written filters (·.flatMap Sign.source) template).flatMap Sign.shown := by
  intro scope template
  have taken : scope.interpolate .empty template = "\x7b\x7b".toList := by decide +kernel
  refine ⟨by decide +kernel, taken, ?_⟩
  intro everywhere
  have inserted := everywhere scope .empty template
  rw [taken] at inserted
  exact absurd inserted (by decide +kernel)

end Scope

end UiMarkdown
