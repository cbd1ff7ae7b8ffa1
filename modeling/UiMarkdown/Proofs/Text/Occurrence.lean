import Mathlib.Data.List.Basic
import UiMarkdown.Text.Chars

/-!
# Occurrences

A pattern occurs in a text when the text is something, the pattern and
something else.  When two texts adjoin, an occurrence may start in the first
one and end in the second; a search may cross the first text only if none
starts there.
-/

namespace UiMarkdown

namespace Text

/-- An occurrence of a pattern starts in the first of two adjoining texts. -/
def StartsIn (pattern a b : List Char) : Prop :=
  ∃ u v, a = u ++ v ∧ v ≠ [] ∧ pattern <+: v ++ b

theorem isPrefixOf?_eq_none_iff {pattern s : List Char} :
    pattern.isPrefixOf? s = none ↔ ¬ pattern <+: s := by
  constructor
  · rintro failed ⟨rest, rfl⟩
    rw [List.isPrefixOf?_eq_some_iff_append_eq.2 rfl] at failed
    cases failed
  · intro absent
    cases found : pattern.isPrefixOf? s with
    | none => rfl
    | some rest => exact absurd ⟨rest, List.isPrefixOf?_eq_some_iff_append_eq.1 found⟩ absent

/-- The search for a pattern fails exactly when it does not occur. -/
theorem cutOn?_eq_none_iff {pattern s : List Char} :
    cutOn? pattern s = none ↔ ¬ pattern <:+: s := by
  induction s with
  | nil => cases pattern <;> simp [cutOn?]
  | cons c rest ih =>
      rw [List.infix_cons_iff, not_or, ← isPrefixOf?_eq_none_iff, ← ih, cutOn?]
      cases found : pattern.isPrefixOf? (c :: rest) with
      | none => simp
      | some after => simp

theorem occurs_iff {pattern s : List Char} : occurs pattern s = true ↔ pattern <:+: s := by
  rw [occurs, Option.isSome_iff_ne_none, ne_eq, cutOn?_eq_none_iff, not_not]

theorem occurs_eq_false_iff {pattern s : List Char} :
    occurs pattern s = false ↔ ¬ pattern <:+: s := by
  rw [← occurs_iff, Bool.not_eq_true]

namespace StartsIn

@[simp] theorem not_nil (pattern b : List Char) : ¬ StartsIn pattern [] b := by
  rintro ⟨u, v, split, nonempty, -⟩
  exact nonempty (List.append_eq_nil_iff.1 split.symm).2

/-- An occurrence starts at the first character or after it. -/
theorem cons_iff {pattern a b : List Char} {c : Char} :
    StartsIn pattern (c :: a) b ↔ pattern <+: c :: (a ++ b) ∨ StartsIn pattern a b := by
  constructor
  · rintro ⟨u, v, split, nonempty, starts⟩
    cases u with
    | nil =>
        rw [List.nil_append] at split
        subst split
        exact .inl starts
    | cons d u => exact .inr ⟨u, v, (List.cons.inj split).2, nonempty, starts⟩
  · rintro (starts | ⟨u, v, rfl, nonempty, starts⟩)
    · exact ⟨[], c :: a, rfl, List.cons_ne_nil c a, starts⟩
    · exact ⟨c :: u, v, rfl, nonempty, starts⟩

/-- No occurrence starts in a text without the first character of the pattern. -/
theorem not_of_head_not_mem {pattern a b : List Char} {c : Char} (h : c ∉ a) :
    ¬ StartsIn (c :: pattern) a b := by
  rintro ⟨u, v, rfl, nonempty, rest, starts⟩
  cases v with
  | nil => exact nonempty rfl
  | cons d v =>
      apply h
      rw [(List.cons.inj starts).1]
      exact List.mem_append_right u List.mem_cons_self

/--
No occurrence starts in a text that holds none, when the next character stands
only at the start of the pattern.
-/
theorem not_of_absent {pattern a b : List Char} {c d : Char}
    (absent : ¬ (c :: pattern) <:+: a) (next : d ∉ pattern) :
    ¬ StartsIn (c :: pattern) a (d :: b) := by
  rintro ⟨u, v, rfl, nonempty, starts⟩
  rcases List.prefix_or_prefix_of_prefix starts (List.prefix_append v (d :: b)) with
    within | ⟨w, split⟩
  · exact absent (within.isInfix.trans (List.suffix_append u v).isInfix)
  · cases v with
    | nil => exact nonempty rfl
    | cons e v =>
        obtain ⟨-, rest⟩ := List.cons.inj split
        cases w with
        | nil =>
            rw [List.append_nil] at split
            exact absent (split ▸ (List.suffix_append u (e :: v)).isInfix)
        | cons f w =>
            obtain ⟨after, whole⟩ := starts
            rw [← split, List.append_assoc, List.append_cancel_left_eq] at whole
            apply next
            rw [← rest, ← (List.cons.inj whole).1]
            exact List.mem_append_right v List.mem_cons_self

/-- No occurrence starts in a text that holds none, when its last character is not in the pattern. -/
theorem not_of_last_not_mem {pattern a b : List Char} {d : Char}
    (absent : ¬ pattern <:+: a ++ [d]) (last : d ∉ pattern) :
    ¬ StartsIn pattern (a ++ [d]) b := by
  rintro ⟨u, v, split, nonempty, starts⟩
  rcases List.prefix_or_prefix_of_prefix starts (List.prefix_append v b) with within | across
  · apply absent
    rw [split]
    exact within.isInfix.trans (List.suffix_append u v).isInfix
  · apply last
    apply across.subset
    have ends := congrArg List.getLast? split
    rw [List.getLast?_concat, List.getLast?_append_of_ne_nil _ nonempty] at ends
    exact List.mem_of_getLast? ends.symm

end StartsIn

/-- An occurrence that does not start in the first text lies in the second one. -/
theorem exists_of_not_startsIn {pattern a b u v : List Char} (h : ¬ StartsIn pattern a b)
    (split : a ++ b = u ++ v) (starts : pattern <+: v) : ∃ w, u = a ++ w ∧ b = w ++ v := by
  rcases List.append_eq_append_iff.1 split with ⟨w, rfl, rest⟩ | ⟨w, rfl, rfl⟩
  · exact ⟨w, rfl, rest⟩
  · cases w with
    | nil => exact ⟨[], by simp, rfl⟩
    | cons c w => exact absurd ⟨u, c :: w, rfl, List.cons_ne_nil c w, starts⟩ h

/-- A search crosses a text in which no occurrence starts. -/
theorem cutOn?_append_of_not_startsIn {pattern a b : List Char} (h : ¬ StartsIn pattern a b) :
    cutOn? pattern (a ++ b) =
      (cutOn? pattern b).map fun (before, after) => (a ++ before, after) := by
  induction a with
  | nil => simp
  | cons c a ih =>
      rw [StartsIn.cons_iff, not_or] at h
      rw [List.cons_append, cutOn?, isPrefixOf?_eq_none_iff.2 h.1, ih h.2, Option.map_map]
      rfl

/-- The text before the first occurrence holds no occurrence that starts in it. -/
theorem not_startsIn_of_cutOn? {pattern s before after : List Char}
    (h : cutOn? pattern s = some (before, after)) :
    ¬ StartsIn pattern before (pattern ++ after) := by
  induction s generalizing before after with
  | nil =>
      rw [cutOn?] at h
      split at h
      · cases h
        exact StartsIn.not_nil _ _
      · cases h
  | cons c rest ih =>
      rw [cutOn?] at h
      cases found : pattern.isPrefixOf? (c :: rest) with
      | some left =>
          rw [found] at h
          cases h
          exact StartsIn.not_nil _ _
      | none =>
          rw [found] at h
          obtain ⟨⟨before', after'⟩, cut, same⟩ := Option.map_eq_some_iff.1 h
          obtain ⟨rfl, rfl⟩ := Prod.mk.inj same
          rw [StartsIn.cons_iff, not_or]
          refine ⟨?_, ih cut⟩
          rw [← List.append_assoc, ← eq_append_of_cutOn? cut]
          exact isPrefixOf?_eq_none_iff.1 found

/-- The text before the first occurrence does not hold the pattern. -/
theorem not_infix_of_cutOn? {pattern s before after : List Char} (nonempty : pattern ≠ [])
    (h : cutOn? pattern s = some (before, after)) : ¬ pattern <:+: before := by
  rintro ⟨u, v, rfl⟩
  apply not_startsIn_of_cutOn? h
  refine ⟨u, pattern ++ v, by simp, by simp [nonempty], ?_⟩
  rw [List.append_assoc]
  exact List.prefix_append pattern _

/-- What follows any occurrence is an end of what follows the first one. -/
theorem suffix_of_cutOn? {pattern s before after u v : List Char}
    (h : cutOn? pattern s = some (before, after)) (occurrence : s = u ++ pattern ++ v) :
    v <:+ after := by
  have first := eq_append_of_cutOn? h
  have le : before.length ≤ u.length := by
    by_contra longer
    -- the occurrence would start in the text before the first one
    apply not_startsIn_of_cutOn? h
    have inside : u <+: before := by
      have left : u <+: s := ⟨pattern ++ v, by rw [occurrence, List.append_assoc]⟩
      have right : before <+: s := ⟨pattern ++ after, by rw [first, List.append_assoc]⟩
      exact List.prefix_of_prefix_length_le left right (by omega)
    obtain ⟨w, rfl⟩ := inside
    refine ⟨u, w, rfl, ?_, v, ?_⟩
    · rintro rfl
      simp at longer
    · rw [← List.append_right_inj u, ← List.append_assoc, ← occurrence, first]
      simp
  have left : v <:+ s := ⟨u ++ pattern, occurrence.symm⟩
  have right : after <:+ s := ⟨before ++ pattern, first.symm⟩
  have sizes := congrArg List.length (first.symm.trans occurrence)
  simp only [List.length_append] at sizes
  exact List.suffix_of_suffix_length_le left right (by omega)

end Text

end UiMarkdown
