import UiMarkdown.Proofs.Text.Occurrence

/-!
# Replacement

A replacement of the same length as its pattern keeps the length of a text, and
a text without the pattern stays as it is.  At the start of a text either the
pattern is replaced, or a character is kept.
-/

namespace UiMarkdown

namespace Text

/-- The characters passed over and those that are left make up the text. -/
theorem length_replaceAfter {pattern replacement : List Char}
    (same : replacement.length = pattern.length) (nonempty : 0 < pattern.length)
    (skip : Nat) (s : List Char) (within : skip ≤ s.length) :
    (replaceAfter pattern replacement skip s).length + skip = s.length := by
  induction s generalizing skip with
  | nil =>
      rw [replaceAfter, List.length_nil, Nat.zero_add]
      exact Nat.le_zero.1 within
  | cons c rest ih =>
      rw [List.length_cons] at within
      cases skip with
      | succ skip =>
          rw [replaceAfter, List.length_cons, ← ih skip (Nat.le_of_succ_le_succ within)]
          rfl
      | zero =>
          rw [replaceAfter]
          split
          · rename_i starts
            have fits : pattern.length ≤ rest.length + 1 :=
              (List.isPrefixOf_iff_prefix.1 starts).length_le
            have passed := ih (pattern.length - 1) (by omega)
            rw [List.length_append, List.length_cons, same]
            omega
          · have passed := ih 0 (Nat.zero_le _)
            rw [List.length_cons, List.length_cons]
            omega

/-- A replacement of the same length keeps the length of a text. -/
theorem length_replace {pattern replacement : List Char}
    (same : replacement.length = pattern.length) (nonempty : 0 < pattern.length)
    (s : List Char) : (replace pattern replacement s).length = s.length :=
  length_replaceAfter same nonempty 0 s (Nat.zero_le _)

/-- Where the pattern does not occur, nothing is replaced. -/
theorem replace_of_absent {pattern s : List Char} (replacement : List Char)
    (absent : ¬ pattern <:+: s) : replace pattern replacement s = s := by
  rw [replace]
  induction s with
  | nil => rfl
  | cons c rest ih =>
      rw [List.infix_cons_iff, not_or] at absent
      have starts : pattern.isPrefixOf (c :: rest) = false := by
        rw [← Bool.not_eq_true, List.isPrefixOf_iff_prefix]
        exact absent.1
      rw [replaceAfter, starts, ih absent.2]
      rfl

theorem replaceAfter_append (pattern replacement a b : List Char) :
    replaceAfter pattern replacement a.length (a ++ b) = replaceAfter pattern replacement 0 b := by
  induction a with
  | nil => rfl
  | cons c a ih => exact ih

/-- An occurrence at the start is replaced. -/
theorem replace_append {pattern : List Char} (replacement : List Char) (nonempty : pattern ≠ [])
    (s : List Char) :
    replace pattern replacement (pattern ++ s) = replacement ++ replace pattern replacement s := by
  obtain ⟨c, more, rfl⟩ := List.exists_cons_of_ne_nil nonempty
  have starts : (c :: more).isPrefixOf (c :: (more ++ s)) = true :=
    List.isPrefixOf_iff_prefix.2 (List.prefix_append (c :: more) s)
  rw [replace, List.cons_append, replaceAfter, if_pos starts, List.length_cons,
    Nat.add_sub_cancel, replaceAfter_append]
  rfl

/-- A character at which no occurrence starts is kept. -/
theorem replace_cons {pattern s : List Char} (replacement : List Char) {c : Char}
    (apart : ¬ pattern <+: c :: s) :
    replace pattern replacement (c :: s) = c :: replace pattern replacement s := by
  rw [replace, replaceAfter, if_neg]
  · rfl
  · rwa [List.isPrefixOf_iff_prefix]

/-- A character that starts no replacement was there before. -/
theorem exists_of_replace_eq_cons {pattern replacement s t : List Char} {c first : Char}
    (starts : replacement.head? = some first) (other : c ≠ first)
    (replaced : replace pattern replacement s = c :: t) :
    ∃ rest, s = c :: rest ∧ t = replace pattern replacement rest := by
  cases s with
  | nil => cases replaced
  | cons d rest =>
      obtain ⟨more, rfl⟩ := List.head?_eq_some_iff.1 starts
      rw [replace, replaceAfter] at replaced
      split at replaced
      · exact absurd (List.cons.inj replaced).1.symm other
      · obtain ⟨rfl, rfl⟩ := List.cons.inj replaced
        exact ⟨rest, rfl, rfl⟩

end Text

end UiMarkdown
