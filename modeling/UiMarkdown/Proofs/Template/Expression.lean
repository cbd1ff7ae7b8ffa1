import UiMarkdown.Proofs.Text.Trim
import UiMarkdown.Template.Expression

/-!
# Alternatives and white space

White space around an expression belongs to its first and its last alternative,
from which it is trimmed.
-/

namespace UiMarkdown

namespace Expression

theorem consFirst_ne_nil (c : Char) (parts : List (List Char)) : consFirst c parts ≠ [] := by
  cases parts <;> exact List.cons_ne_nil _ _

theorem splitAlternatives_ne_nil (quote : Option Char) (s : List Char) :
    splitAlternatives quote s ≠ [] := by
  fun_cases splitAlternatives quote s
  case case1 => exact List.cons_ne_nil _ _
  case case2 => exact List.cons_ne_nil _ _
  case case3 => exact consFirst_ne_nil _ _
  case case4 => exact List.cons_ne_nil _ _
  case case5 => exact consFirst_ne_nil _ _
  case case6 => exact consFirst_ne_nil _ _

theorem splitOutsideQuotes_ne_nil (separator : Char) (quote : Option Char) (s : List Char) :
    splitOutsideQuotes separator quote s ≠ [] := by
  fun_cases splitOutsideQuotes separator quote s
  case case1 => exact List.cons_ne_nil _ _
  case case2 => exact consFirst_ne_nil _ _
  case case3 => exact consFirst_ne_nil _ _
  case case4 => exact List.cons_ne_nil _ _
  case case5 => exact consFirst_ne_nil _ _

/-- White space delimits no quoted text. -/
theorem isQuote_of_isBlank {c : Char} (blank : Text.isBlank c = true) : isQuote c = false := by
  by_contra quote
  rw [Bool.not_eq_false, isQuote, Bool.or_eq_true, beq_iff_eq, beq_iff_eq] at quote
  obtain rfl | rfl := quote <;> revert blank <;> decide

/-- A white space character outside of quotes is one of the first part. -/
theorem splitAlternatives_of_blank {c : Char} (blank : Text.isBlank c = true) (s : List Char) :
    splitAlternatives none (c :: s) = consFirst c (splitAlternatives none s) := by
  have apart {d : Char} (ink : Text.isBlank d = false) : c ≠ d := by
    rintro rfl
    rw [ink] at blank
    cases blank
  rw [splitAlternatives, isQuote_of_isBlank blank, if_neg Bool.false_ne_true]
  · exact fun same => absurd same (apart (by decide))
  · exact fun _ _ same => absurd same (apart (by decide))
  · exact fun _ same => absurd same (apart (by decide))

/-- White space is one part, whether quotes are open or not. -/
theorem splitAlternatives_of_allBlank {s : List Char} (blank : Text.allBlank s = true)
    (quote : Option Char) : splitAlternatives quote s = [s] := by
  induction s generalizing quote with
  | nil => rw [splitAlternatives]
  | cons c s ih =>
      rw [Text.allBlank, List.all_cons, Bool.and_eq_true] at blank
      cases quote with
      | none => rw [splitAlternatives_of_blank blank.1, ih blank.2, consFirst]
      | some quote =>
          have apart : c ≠ '\\' := by
            rintro rfl
            exact absurd blank.1 (by decide)
          rw [splitAlternatives, ih blank.2, consFirst]
          · exact fun same => absurd same apart
          · exact fun _ _ same => absurd same apart

theorem map_trim_consFirst {c : Char} (blank : Text.isBlank c = true)
    {parts : List (List Char)} (nonempty : parts ≠ []) :
    (consFirst c parts).map Text.trim = parts.map Text.trim := by
  cases parts with
  | nil => exact absurd rfl nonempty
  | cons part more =>
      rw [consFirst, List.map_cons, List.map_cons, Text.trim, Text.trimStart,
        List.dropWhile_cons_of_pos blank, ← Text.trimStart, ← Text.trim]

theorem map_trimEnd_consFirst {c : Char} {parts others : List (List Char)}
    (same : parts.map Text.trimEnd = others.map Text.trimEnd) :
    (consFirst c parts).map Text.trimEnd = (consFirst c others).map Text.trimEnd := by
  cases parts with
  | nil =>
      rw [List.map_nil, eq_comm, List.map_eq_nil_iff] at same
      rw [same]
  | cons part more =>
      cases others with
      | nil => cases same
      | cons other others =>
          rw [List.map_cons, List.map_cons, List.cons.injEq] at same
          rw [consFirst, consFirst, List.map_cons, List.map_cons, same.2]
          rw [Text.trimEnd, Text.trimEnd] at same
          rw [Text.trimEnd, Text.trimEnd, Text.dropEnd, Text.dropEnd, same.1]

/-- White space before an expression does not count. -/
theorem map_trim_splitAlternatives_append {before : List Char}
    (blank : Text.allBlank before = true) (s : List Char) :
    (splitAlternatives none (before ++ s)).map Text.trim =
      (splitAlternatives none s).map Text.trim := by
  induction before with
  | nil => rfl
  | cons c before ih =>
      rw [Text.allBlank, List.all_cons, Bool.and_eq_true] at blank
      rw [List.cons_append, splitAlternatives_of_blank blank.1,
        map_trim_consFirst blank.1 (splitAlternatives_ne_nil _ _), ih blank.2]

/-- A character that neither ends a text as a backslash nor takes another one along is none. -/
theorem ne_backslash {c : Char} {rest : List Char} (last : c = '\\' → rest = [] → False)
    (escaped : ∀ d more, c = '\\' → rest = d :: more → False) : c ≠ '\\' := by
  rintro rfl
  cases rest with
  | nil => exact last rfl rfl
  | cons d rest => exact escaped d rest rfl rfl

/-- White space after an expression does not count, quotes and backslashes notwithstanding. -/
theorem map_trimEnd_splitAlternatives_append {after : List Char}
    (blank : Text.allBlank after = true) (quote : Option Char) (s : List Char) :
    (splitAlternatives quote (s ++ after)).map Text.trimEnd =
      (splitAlternatives quote s).map Text.trimEnd := by
  have notHead {c : Char} (apart : Text.isBlank c = false) (rest : List Char) :
      after ≠ c :: rest := by
    rintro rfl
    rw [Text.allBlank, List.all_cons, apart] at blank
    cases blank
  fun_induction splitAlternatives quote s with
  | case1 quote =>
      rw [List.nil_append, splitAlternatives_of_allBlank blank, List.map_singleton,
        List.map_singleton, Text.trimEnd, Text.dropEnd_eq_nil blank]
      rfl
  | case2 quote =>
      have ends : Text.trimEnd ('\\' :: after) = ['\\'] := by
        rw [Text.trimEnd, Text.dropEnd_cons_of_not _ (by decide), Text.dropEnd_eq_nil blank]
      cases after with
      | nil => rw [List.append_nil, splitAlternatives]
      | cons c after =>
          rw [Text.allBlank, List.all_cons, Bool.and_eq_true] at blank
          rw [List.singleton_append, splitAlternatives, splitAlternatives_of_allBlank blank.2,
            consFirst, consFirst, List.map_singleton, ends]
          rfl
  | case3 quote c rest ih =>
      rw [List.cons_append, List.cons_append, splitAlternatives]
      exact map_trimEnd_consFirst (map_trimEnd_consFirst ih)
  | case4 rest ih =>
      rw [List.cons_append, List.cons_append, splitAlternatives, List.map_cons, List.map_cons, ih]
  | case5 c rest last escaped separator ih =>
      have apart := ne_backslash last escaped
      rw [List.cons_append, splitAlternatives]
      · exact map_trimEnd_consFirst ih
      · exact fun same => absurd same apart
      · exact fun _ _ same => absurd same apart
      · rintro more same starts
        cases rest with
        | nil => exact notHead (by decide) more starts
        | cons d rest =>
            rw [List.cons_append, List.cons.injEq] at starts
            exact separator rest same (by rw [starts.1])
  | case6 quote c rest last escaped ih =>
      have apart := ne_backslash last escaped
      rw [List.cons_append, splitAlternatives]
      · exact map_trimEnd_consFirst ih
      · exact fun same => absurd same apart
      · exact fun _ _ same => absurd same apart

/-- An expression and its trimmed form have the same alternatives. -/
theorem alternatives_trim (s : List Char) : alternatives (Text.trim s) = alternatives s := by
  obtain ⟨before, after, split, blankBefore, blankAfter⟩ := Text.exists_append_trim s
  have ended (parts : List (List Char)) :
      parts.map Text.trim = (parts.map Text.trimEnd).map Text.trimStart := by
    rw [List.map_map]
    exact List.map_congr_left fun part _ => Text.trim_eq_trimStart_trimEnd part
  conv_rhs => rw [split]
  rw [alternatives, alternatives, map_trim_splitAlternatives_append blankBefore, ended, ended,
    map_trimEnd_splitAlternatives_append blankAfter]

end Expression

end UiMarkdown
