import UiMarkdown.Proofs.Template.Quoting
import UiMarkdown.Template.Scope

/-!
# Chains of alternatives

Two expressions that are joined by `||` have the alternatives of the first one and
then those of the second one, unless a quote is left open between them.  So the text
of the chain is that of the first expression, and without any that of the second one.
-/

namespace UiMarkdown

namespace Expression

/-- The quote that is open behind a text in which a backslash takes the next character along. -/
def quoteAfter : (quote : Option Char) → List Char → Option Char
  | quote, [] => quote
  | quote, ['\\'] => quote
  | quote, '\\' :: _ :: rest => quoteAfter quote rest
  | quote, c :: rest => quoteAfter (turn quote c) rest

/--
The scan goes on behind a space with the quote that is open before it, also where a
backslash takes the space along.
-/
theorem scan_append_space {quote : Option Char} (delimits : ∀ q ∈ quote, isQuote q = true)
    (s t : List Char) :
    scan quote (s ++ ' ' :: t) = scan quote (s ++ [' ']) ++ scan (quoteAfter quote s) t := by
  fun_induction quoteAfter quote s with
  | case1 quote =>
      have still : turn quote ' ' = quote := by
        cases quote with
        | none => rfl
        | some q =>
            have apart : ' ' ≠ q := by
              rintro rfl
              exact absurd (delimits ' ' rfl) (by decide)
            simp [turn, apart]
      simp [scan, still]
  | case2 quote => simp [scan]
  | case3 quote c rest ih => simp [scan, ih delimits]
  | case4 quote c rest last escaped ih =>
      have apart := ne_backslash last escaped
      have step (more : List Char) :
          scan quote (c :: more) = ⟨c, false, quote⟩ :: scan (turn quote c) more := by
        rw [scan] <;> simp [apart]
      rw [List.cons_append, List.cons_append, step, step, ih (isQuote_of_turn delimits c),
        List.cons_append]

/-- Two separating bars end a part, if no separating bar stands before them. -/
theorem cutPairs_append {seen more : List Seen} {x y : Seen} (here : x.separates = true)
    (there : y.separates = true) (last : ∀ z ∈ seen.getLast?, z.separates = false) :
    cutPairs (seen ++ x :: y :: more) = cutPairs seen ++ cutPairs more := by
  fun_induction cutPairs seen with
  | case1 => simp [cutPairs, here, there]
  | case2 z => simp [cutPairs, last z rfl, here, there]
  | case3 z w rest both ih =>
      rw [Bool.and_eq_true] at both
      have later : ∀ z ∈ rest.getLast?, z.separates = false := by
        cases rest with
        | nil => simp
        | cons u rest => simpa using last
      simp [cutPairs, both, ih later]
  | case4 z w rest apart ih =>
      obtain ⟨part, parts, whole⟩ := List.exists_cons_of_ne_nil (cutPairs_ne_nil (w :: rest))
      rw [List.cons_append, List.cons_append, cutPairs, if_neg apart, ← List.cons_append,
        ih (by simpa using last), whole]
      rfl

/-- No quote is open before a separator, so the parts around it are read one by one. -/
theorem splitAlternatives_append {s : List Char} (shut : quoteAfter none s = none)
    (t : List Char) :
    splitAlternatives none (s ++ ' ' :: '|' :: '|' :: t) =
      splitAlternatives none (s ++ [' ']) ++ splitAlternatives none t := by
  have bars : scan none ('|' :: '|' :: t) =
      ⟨'|', false, none⟩ :: ⟨'|', false, none⟩ :: scan none t := by
    simp [scan, turn, isQuote]
  have last : ∀ x ∈ (scan none (s ++ [' '])).getLast?, x.separates = false := by
    intro x isLast
    have chars := congrArg List.getLast? (map_char_scan none (s ++ [' ']))
    rw [List.getLast?_map, isLast, List.getLast?_concat, Option.map_some, Option.some.injEq] at chars
    simp [Seen.separates, chars]
  rw [splitAlternatives_eq, scan_append_space (by simp), shut, bars,
    cutPairs_append (by decide) (by decide) last, List.map_append, ← splitAlternatives_eq,
    ← splitAlternatives_eq]

/-- White space around an expression does not count. -/
theorem alternatives_append_space (s : List Char) : alternatives (s ++ [' ']) = alternatives s := by
  have blank : Text.allBlank [' '] = true := by decide
  rw [← alternatives_trim, ← alternatives_trim s, Text.trim_eq_trimStart_trimEnd, Text.trimEnd,
    Text.dropEnd_append blank, ← Text.trimEnd, ← Text.trim_eq_trimStart_trimEnd]

theorem alternatives_append {s : List Char} (shut : quoteAfter none s = none) (t : List Char) :
    alternatives (s ++ [' ', '|', '|', ' '] ++ t) = alternatives s ++ alternatives t := by
  have blank : Text.allBlank [' '] = true := by decide
  have before : (splitAlternatives none (' ' :: t)).map Text.trim = alternatives t :=
    map_trim_splitAlternatives_append blank t
  have behind : (splitAlternatives none (s ++ [' '])).map Text.trim = alternatives s :=
    alternatives_append_space s
  rw [List.append_assoc, alternatives, List.cons_append, List.cons_append, List.cons_append,
    splitAlternatives_append shut, List.map_append, behind]
  exact congrArg _ before

end Expression

namespace Scope

open Expression

/-- An expression has no text or nonempty text. -/
theorem ne_nil_of_expression? {scope : Scope} {filters : FilterTable} {s text : List Char}
    (rendered : scope.expression? filters s = some text) : text ≠ [] := by
  obtain ⟨alternative, -, found⟩ := List.exists_of_findSome?_eq_some rendered
  obtain ⟨text', -, present⟩ := Option.bind_eq_some_iff.1 found
  rintro rfl
  cases text' <;> simp [nonempty?] at present

/--
Two expressions joined by `||`, no quote being open behind the first one, have the
alternatives of both in order.  The text of the chain is that of the first expression if
it has any, and else that of the second one; and no text is empty.
-/
theorem expression?_chain {first : List Char} (shut : quoteAfter none first = none)
    (second : List Char) :
    alternatives (first ++ [' ', '|', '|', ' '] ++ second) =
        alternatives first ++ alternatives second ∧
      ∀ (scope : Scope) (filters : FilterTable),
        scope.expression? filters (first ++ [' ', '|', '|', ' '] ++ second) =
          (scope.expression? filters first).or (scope.expression? filters second) ∧
        ∀ s text, scope.expression? filters s = some text → text ≠ [] := by
  refine ⟨alternatives_append shut second, fun scope filters => ⟨?_, ?_⟩⟩
  · rw [expression?, alternatives_append shut, List.findSome?_append]
    rfl
  · exact fun _ _ => ne_nil_of_expression?

/--
Behind an escaped quote and a bar, where a backslash takes the space of the separator
along, the second expression is still one of its own.
-/
theorem expression?_chain_behind_backslash :
    let first := "missing | \\' || '' |\\".toList
    let second := "a | b".toList
    quoteAfter none first = none ∧
      alternatives (first ++ [' ', '|', '|', ' '] ++ second) =
        ["missing | \\'".toList, "'' |\\".toList, second] ∧
      (⟨[("a", .str "x")], []⟩ : Scope).expression? .empty
        (first ++ [' ', '|', '|', ' '] ++ second) = some ['x'] := by
  intro first second
  have shut : quoteAfter none first = none := by decide +kernel
  obtain ⟨both, rendered⟩ := expression?_chain shut second
  refine ⟨shut, ?_, ?_⟩
  · rw [both]
    decide +kernel
  · rw [(rendered _ _).1]
    decide +kernel

end Scope

end UiMarkdown
