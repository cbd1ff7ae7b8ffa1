import Mathlib.Data.List.Basic
import Mathlib.Tactic.SplitIfs
import UiMarkdown.Text.Quoted

/-!
# Escapes in quoted text

Every escape is longer than its character, so a text that is the same between
quotes has none.  Only a quote itself is written with a quote.
-/

namespace UiMarkdown

namespace Text

theorem quote_not_mem_hexDigits (n : Nat) : '"' ∉ hexDigits n := by
  induction n using Nat.strongRecOn with
  | _ n ih =>
      rw [hexDigits, Nat.toDigits_eq_if (by decide)]
      split
      · simp
      · rw [List.mem_append, not_or]
        constructor
        · apply ih
          omega
        · simp

/-- Only a quote is written with a quote. -/
theorem quote_not_mem_escapeChar {c : Char} (other : c ≠ '"') : '"' ∉ escapeChar c := by
  rw [escapeChar]
  split_ifs with null tab carriage feed quote backslash hidden
  · decide
  · decide
  · decide
  · decide
  · exact absurd (beq_iff_eq.1 quote) other
  · decide
  · simp [quote_not_mem_hexDigits]
  · simpa using other.symm

theorem quote_not_mem_flatMap_escapeChar {s : List Char} (apart : '"' ∉ s) :
    '"' ∉ s.flatMap escapeChar := by
  rw [List.mem_flatMap]
  rintro ⟨c, mem, quote⟩
  apply quote_not_mem_escapeChar _ quote
  rintro rfl
  exact apart mem

theorem length_escapeChar_pos (c : Char) : 0 < (escapeChar c).length := by
  rw [escapeChar]
  split_ifs <;> simp

theorem length_le_length_flatMap_escapeChar (s : List Char) :
    s.length ≤ (s.flatMap escapeChar).length := by
  induction s with
  | nil => exact Nat.le_refl 0
  | cons c rest ih =>
      have positive := length_escapeChar_pos c
      rw [List.flatMap_cons, List.length_append, List.length_cons]
      omega

/-- A text is written as it is exactly when none of its characters is escaped. -/
theorem flatMap_escapeChar_eq_self_iff {s : List Char} :
    s.flatMap escapeChar = s ↔ ∀ c ∈ s, escapeChar c = [c] := by
  constructor
  · intro same
    induction s with
    | nil => exact List.forall_mem_nil _
    | cons c rest ih =>
        have sizes := congrArg List.length same
        have positive := length_escapeChar_pos c
        have fits := length_le_length_flatMap_escapeChar rest
        rw [List.flatMap_cons, List.length_append, List.length_cons] at sizes
        obtain ⟨d, single⟩ := List.length_eq_one_iff.1 (show (escapeChar c).length = 1 by omega)
        rw [List.flatMap_cons, single, List.singleton_append, List.cons.injEq] at same
        obtain ⟨rfl, later⟩ := same
        exact List.forall_mem_cons.2 ⟨single, ih later⟩
  · intro shown
    rw [List.flatMap_congr shown, List.flatMap_singleton']

end Text

end UiMarkdown
