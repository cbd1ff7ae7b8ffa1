import UiMarkdown.Proofs.Text.Replace
import UiMarkdown.Template.Scope

/-!
# Signs of a template

A template is read in signs: a character, or two braces behind a backslash.  Its
items are the signs outside of its spans and the spans, each with the signs of its
body.  Rendering does not read signs: it replaces the escapes by guards and looks for
braces in what it gets.  A guard has no brace and starts no escape, so guarding a
template guards each of its signs, and the braces that are found are signs.
-/

namespace UiMarkdown

namespace Template

/-- A character of a template, or an escape. -/
inductive Sign where
  | char (c : Char)
  | opening
  | closing
  deriving DecidableEq, Repr

namespace Sign

def source : Sign → List Char
  | .char c => [c]
  | .opening => '\\' :: Template.opening
  | .closing => '\\' :: Template.closing

def shown : Sign → List Char
  | .char c => [c]
  | .opening => Template.opening
  | .closing => Template.closing

/-- A sign while expressions are looked for. -/
def guarded : Sign → List Char
  | .char c => [c]
  | .opening => Scope.openingGuard
  | .closing => Scope.closingGuard

end Sign

def signs : List Char → List Sign
  | '\\' :: '\x7b' :: '\x7b' :: rest => .opening :: signs rest
  | '\\' :: '\x7d' :: '\x7d' :: rest => .closing :: signs rest
  | c :: rest => .char c :: signs rest
  | [] => []

/-- An item of a template: a sign outside of its spans, or a span with the signs of its body. -/
inductive Item where
  | plain (sign : Sign)
  | span (body : List Sign)
  deriving DecidableEq, Repr

def Item.source : Item → List Char
  | .plain sign => sign.source
  | .span body => opening ++ body.flatMap Sign.source ++ closing

def cutClosing? : List Sign → Option (List Sign × List Sign)
  | .char '\x7d' :: .char '\x7d' :: rest => some ([], rest)
  | sign :: rest => (cutClosing? rest).map fun (body, after) => (sign :: body, after)
  | [] => none

/-- A cut loses no sign. -/
theorem eq_of_cutClosing? {signs body after : List Sign}
    (cut : cutClosing? signs = some (body, after)) :
    signs = body ++ .char '\x7d' :: .char '\x7d' :: after := by
  fun_induction cutClosing? signs generalizing body with
  | case1 rest =>
      cases cut
      rfl
  | case2 sign rest _ ih =>
      obtain ⟨⟨inner, left⟩, found, same⟩ := Option.map_eq_some_iff.1 cut
      cases same
      exact congrArg (sign :: ·) (ih found)
  | case3 => cases cut

theorem length_le_of_cutClosing? {signs body after : List Sign}
    (cut : cutClosing? signs = some (body, after)) : after.length ≤ signs.length := by
  simp only [eq_of_cutClosing? cut, List.length_append, List.length_cons]
  omega

def items : List Sign → List Item
  | .char '\x7b' :: .char '\x7b' :: rest =>
      match _h : cutClosing? rest with
      | some (body, after) => .span body :: items after
      | none => (.char '\x7b' :: .char '\x7b' :: rest).map .plain
  | sign :: rest => .plain sign :: items rest
  | [] => []
termination_by signs => signs.length
decreasing_by
  · have fits := length_le_of_cutClosing? _h
    simp only [List.length_cons]
    omega
  · exact Nat.lt_succ_self _

theorem flatMap_source_signs (s : List Char) : (signs s).flatMap Sign.source = s := by
  fun_induction signs s with
  | case1 rest ih | case2 rest ih | case3 c rest _ _ ih =>
      rw [List.flatMap_cons, ih]
      rfl
  | case4 => rfl

theorem flatMap_source_items (signs : List Sign) :
    (items signs).flatMap Item.source = signs.flatMap Sign.source := by
  fun_induction items signs with
  | case1 rest body after cut ih =>
      rw [List.flatMap_cons, ih, eq_of_cutClosing? cut]
      simp [Item.source, Sign.source, opening, closing]
  | case2 rest _ =>
      rw [List.flatMap_map]
      rfl
  | case3 sign rest _ ih =>
      rw [List.flatMap_cons, List.flatMap_cons, ih]
      rfl
  | case4 => rfl

/-- Characters are shown as they are. -/
theorem flatMap_map_char {f : Sign → List Char} (same : ∀ c, f (.char c) = [c]) (s : List Char) :
    (s.map Sign.char).flatMap f = s := by
  induction s with
  | nil => rfl
  | cons c rest ih => rw [List.map_cons, List.flatMap_cons, same, ih, List.singleton_append]

/-! ## Guards -/

/-- A character that is no part of a guard comes from a sign of its own. -/
theorem exists_of_flatMap_guarded_eq_cons {signs : List Sign} {b : Char} {s : List Char}
    (plain : b ≠ '\uE000' ∧ b ≠ '\uE001') (starts : signs.flatMap Sign.guarded = b :: s) :
    ∃ rest, signs = .char b :: rest ∧ rest.flatMap Sign.guarded = s := by
  cases signs with
  | nil => cases starts
  | cons sign rest =>
      rw [List.flatMap_cons] at starts
      cases sign with
      | char c =>
          obtain ⟨rfl, rfl⟩ := List.cons.inj starts
          exact ⟨rest, rfl, rfl⟩
      | opening => exact absurd (List.cons.inj starts).1.symm plain.1
      | closing => exact absurd (List.cons.inj starts).1.symm plain.2

/-- Two braces start in a guarded sign only if this sign and the next one are these braces. -/
theorem not_startsIn_guarded {sign : Sign} {rest : List Sign} {b : Char}
    (plain : b ≠ '\uE000' ∧ b ≠ '\uE001')
    (apart : ∀ more, sign = .char b → rest = .char b :: more → False) :
    ¬ Text.StartsIn [b, b] sign.guarded (rest.flatMap Sign.guarded) := by
  cases sign with
  | char c =>
      rw [Sign.guarded, Text.StartsIn.cons_iff, or_iff_left (Text.StartsIn.not_nil _ _)]
      rintro ⟨s, split⟩
      obtain ⟨rfl, goesOn⟩ := List.cons.inj split
      obtain ⟨more, rfl, -⟩ := exists_of_flatMap_guarded_eq_cons plain goesOn.symm
      exact apart more rfl rfl
  | opening =>
      apply Text.StartsIn.not_of_head_not_mem
      simpa [Sign.guarded, Scope.openingGuard] using plain.1
  | closing =>
      apply Text.StartsIn.not_of_head_not_mem
      simpa [Sign.guarded, Scope.closingGuard] using plain.2

/-- Closing braces are found in a guarded text where they are among its signs. -/
theorem cutOn?_closing_flatMap_guarded (signs : List Sign) :
    Text.cutOn? closing (signs.flatMap Sign.guarded) =
      (cutClosing? signs).map fun (body, after) =>
        (body.flatMap Sign.guarded, after.flatMap Sign.guarded) := by
  fun_induction cutClosing? signs with
  | case1 rest => simp [closing, Sign.guarded, Text.cutOn?, List.isPrefixOf?]
  | case2 sign rest apart ih =>
      have front : ¬ Text.StartsIn closing sign.guarded (rest.flatMap Sign.guarded) :=
        not_startsIn_guarded (by decide) apart
      rw [List.flatMap_cons, Text.cutOn?_append_of_not_startsIn front, ih, Option.map_map,
        Option.map_map]
      rfl
  | case3 => rfl

/-- Guarding the escapes of a template is guarding each of its signs. -/
theorem guardEscapes_eq_flatMap (s : List Char) :
    Scope.guardEscapes s = (signs s).flatMap Sign.guarded := by
  have guard : Scope.openingGuard.head? = some '\uE000' := rfl
  rw [Scope.guardEscapes]
  fun_induction signs s with
  | case1 rest ih =>
      have first : Text.replace ('\\' :: opening) Scope.openingGuard
          ('\\' :: '\x7b' :: '\x7b' :: rest) =
            Scope.openingGuard ++ Text.replace ('\\' :: opening) Scope.openingGuard rest :=
        Text.replace_append _ (List.cons_ne_nil '\\' opening) rest
      rw [first, List.flatMap_cons, ← ih, Scope.openingGuard, List.cons_append, List.cons_append,
        List.nil_append, Text.replace_cons _ (by simp), Text.replace_cons _ (by simp)]
      rfl
  | case2 rest ih =>
      have first : Text.replace ('\\' :: opening) Scope.openingGuard
          ('\\' :: '\x7d' :: '\x7d' :: rest) =
            ('\\' :: closing) ++ Text.replace ('\\' :: opening) Scope.openingGuard rest := by
        rw [Text.replace_cons _ (by simp [opening]), Text.replace_cons _ (by simp),
          Text.replace_cons _ (by simp)]
        rfl
      rw [first, Text.replace_append _ (List.cons_ne_nil '\\' closing), ih]
      rfl
  | case3 c rest noOpening noClosing ih =>
      have kept : ¬ ('\\' :: opening) <+: c :: rest := by
        rintro ⟨more, split⟩
        obtain ⟨rfl, rfl⟩ := List.cons.inj split
        exact noOpening more rfl rfl
      -- closing braces behind a replaced escape would have stood there before
      have kept' : ¬ ('\\' :: closing) <+:
          c :: Text.replace ('\\' :: opening) Scope.openingGuard rest := by
        rintro ⟨more, split⟩
        obtain ⟨rfl, starts⟩ := List.cons.inj split
        obtain ⟨later, rfl, goesOn⟩ := Text.exists_of_replace_eq_cons guard (by decide) starts.symm
        obtain ⟨last, rfl, -⟩ := Text.exists_of_replace_eq_cons guard (by decide) goesOn.symm
        exact noClosing last rfl rfl
      rw [Text.replace_cons _ kept, Text.replace_cons _ kept', ih]
      rfl
  | case4 => rfl

/-- Escapes of both kinds next to braces; the first two closing braces end the span. -/
example : items (signs "\\\\\x7b\x7b\x7b\x7b\x7ba\\\x7d\x7d\x7d\x7d\x7d".toList) =
    [.plain (.char '\\'), .plain .opening, .span [.char '\x7b', .char 'a', .closing],
      .plain (.char '\x7d')] := by
  decide +kernel

end Template

end UiMarkdown
