import Mathlib.Data.List.DropRight
import UiMarkdown.Text.Chars

/-!
# Trimmed texts

A text is its trimmed form between two runs of white space, and which end is
trimmed first does not matter.
-/

namespace UiMarkdown

namespace Text

/-- White space is no letter and no digit. -/
theorem isAlphanum_of_isBlank {c : Char} (blank : isBlank c = true) :
    c.isAlphanum = false := by
  have letters : 'A'.val.toNat = 65 ∧ 'Z'.val.toNat = 90 ∧ 'a'.val.toNat = 97 ∧
      'z'.val.toNat = 122 ∧ '0'.val.toNat = 48 ∧ '9'.val.toNat = 57 := by decide
  have ranges : c.isAlphanum = ((decide (c.val ≥ 'A'.val ∧ c.val ≤ 'Z'.val) ||
      (decide (c.val ≥ 'a'.val) && decide (c.val ≤ 'z'.val))) ||
      (decide (c.val ≥ '0'.val) && decide (c.val ≤ '9'.val))) := rfl
  simp only [isBlank, Char.toNat, Bool.or_eq_true, Bool.and_eq_true, decide_eq_true_eq,
    beq_iff_eq] at blank
  simp only [ranges, UInt32.le_iff_toNat_le, ge_iff_le, Bool.or_eq_false_iff,
    Bool.and_eq_false_iff, decide_eq_false_iff_not, letters]
  omega

theorem dropEnd_cons_of_eq_nil {p : Char → Bool} {c : Char} {s : List Char}
    (dropped : dropEnd p s = []) : dropEnd p (c :: s) = if p c then [] else [c] := by
  rw [dropEnd, dropped]

theorem dropEnd_cons_of_ne_nil {p : Char → Bool} {c : Char} {s : List Char}
    (kept : dropEnd p s ≠ []) : dropEnd p (c :: s) = c :: dropEnd p s := by
  rw [dropEnd]
  split
  · rename_i dropped
    exact absurd dropped kept
  · rfl

/-- The text before a kept character is kept. -/
theorem dropEnd_cons_of_not {p : Char → Bool} {c : Char} (s : List Char) (keeps : p c = false) :
    dropEnd p (c :: s) = c :: dropEnd p s := by
  by_cases dropped : dropEnd p s = []
  · rw [dropEnd_cons_of_eq_nil dropped, dropped, keeps, if_neg Bool.false_ne_true]
  · exact dropEnd_cons_of_ne_nil dropped

/-- What is dropped at the end satisfies `p`. -/
theorem exists_append_dropEnd (p : Char → Bool) (s : List Char) :
    ∃ after, s = dropEnd p s ++ after ∧ after.all p = true := by
  induction s with
  | nil => exact ⟨[], rfl, rfl⟩
  | cons c s ih =>
      obtain ⟨after, split, all⟩ := ih
      by_cases dropped : dropEnd p s = []
      · rw [dropEnd_cons_of_eq_nil dropped]
        rw [dropped, List.nil_append] at split
        subst split
        cases holds : p c with
        | true => exact ⟨c :: s, rfl, by rw [List.all_cons, holds, all]; rfl⟩
        | false => exact ⟨s, rfl, all⟩
      · rw [dropEnd_cons_of_ne_nil dropped]
        exact ⟨after, by rw [List.cons_append, ← split], all⟩

theorem dropEnd_eq_nil {p : Char → Bool} {s : List Char} (all : s.all p = true) :
    dropEnd p s = [] := by
  induction s with
  | nil => rfl
  | cons c s ih =>
      rw [List.all_cons, Bool.and_eq_true] at all
      rw [dropEnd_cons_of_eq_nil (ih all.2), if_pos all.1]

theorem dropEnd_append {p : Char → Bool} {s after : List Char} (all : after.all p = true) :
    dropEnd p (s ++ after) = dropEnd p s := by
  induction s with
  | nil => exact dropEnd_eq_nil all
  | cons c s ih => rw [List.cons_append, dropEnd, dropEnd, ih]

/-- Nothing is dropped before something that is kept. -/
theorem dropEnd_append_of_ne_nil {p : Char → Bool} {a b : List Char} (kept : dropEnd p b ≠ []) :
    dropEnd p (a ++ b) = a ++ dropEnd p b := by
  induction a with
  | nil => rfl
  | cons c a ih =>
      rw [List.cons_append, dropEnd_cons_of_ne_nil, ih, List.cons_append]
      rw [ih]
      exact fun empty => kept (List.append_eq_nil_iff.1 empty).2

theorem dropEnd_eq_rdropWhile (p : Char → Bool) (s : List Char) :
    dropEnd p s = s.rdropWhile p := by
  induction s using List.reverseRecOn with
  | nil => rfl
  | append_singleton s c ih =>
      cases drops : p c with
      | true => rw [dropEnd_append (by simp [drops]), List.rdropWhile_concat_pos _ _ _ drops, ih]
      | false =>
          rw [List.rdropWhile_concat_neg _ _ _ (by simp [drops])]
          have kept : dropEnd p [c] = [c] := by simp [dropEnd, drops]
          rw [dropEnd_append_of_ne_nil (by simp [kept]), kept]

theorem dropEnd_dropEnd (p : Char → Bool) (s : List Char) :
    dropEnd p (dropEnd p s) = dropEnd p s := by
  obtain ⟨after, split, all⟩ := exists_append_dropEnd p s
  have whole := dropEnd_append (s := dropEnd p s) all
  rw [← split] at whole
  exact whole.symm

/-- An end at which less is dropped is kept, too. -/
theorem dropEnd_eq_self_of_imp {p q : Char → Bool} {s : List Char} (kept : dropEnd p s = s)
    (weaker : ∀ c, q c = true → p c = true) : dropEnd q s = s := by
  induction s with
  | nil => rfl
  | cons c s ih =>
      by_cases dropped : dropEnd p s = []
      · rw [dropEnd_cons_of_eq_nil dropped] at kept
        split at kept
        · cases kept
        · rename_i stays
          cases kept
          rw [dropEnd, dropEnd, if_neg fun drops => stays (weaker c drops)]
      · rw [dropEnd_cons_of_ne_nil dropped, List.cons_inj_right] at kept
        have inner := ih kept
        rw [dropEnd_cons_of_ne_nil, inner]
        rw [inner, ← kept]
        exact dropped

/-- The end may be trimmed first. -/
theorem dropEnd_eq_self {p : Char → Bool} {s : List Char}
    (kept : ∀ last ∈ s.getLast?, p last = false) : dropEnd p s = s := by
  rcases List.eq_nil_or_concat s with rfl | ⟨front, last, rfl⟩
  · rfl
  · rw [List.concat_eq_append] at kept ⊢
    have single : dropEnd p [last] = [last] := by
      rw [dropEnd, dropEnd, kept last List.getLast?_concat]
      rfl
    rw [dropEnd_append_of_ne_nil, single]
    rw [single]
    exact List.cons_ne_nil last []

theorem trim_eq_trimStart_trimEnd (s : List Char) : trim s = trimStart (trimEnd s) := by
  rw [trim, trimStart, trimStart, trimEnd, trimEnd]
  induction s with
  | nil => rfl
  | cons c s ih =>
      cases blank : isBlank c with
      | true =>
          rw [List.dropWhile_cons_of_pos blank, ih]
          by_cases dropped : dropEnd isBlank s = []
          · rw [dropEnd_cons_of_eq_nil dropped, if_pos blank, dropped]
          · rw [dropEnd_cons_of_ne_nil dropped, List.dropWhile_cons_of_pos blank]
      | false =>
          have kept : ¬ isBlank c = true := by rw [blank]; exact Bool.false_ne_true
          rw [List.dropWhile_cons_of_neg kept, dropEnd_cons_of_not s blank,
            List.dropWhile_cons_of_neg kept]

theorem trim_trim (s : List Char) : trim (trim s) = trim s := by
  have ended : trimEnd (trim s) = trim s := dropEnd_dropEnd isBlank (trimStart s)
  rw [trim_eq_trimStart_trimEnd (trim s), ended, trim_eq_trimStart_trimEnd s, trimStart, trimStart,
    List.dropWhile_idempotent]

/-- A text is its trimmed form with white space around it. -/
theorem exists_append_trim (s : List Char) :
    ∃ before after, s = before ++ (trim s ++ after) ∧ allBlank before = true ∧
      allBlank after = true := by
  obtain ⟨after, split, all⟩ := exists_append_dropEnd isBlank (trimStart s)
  refine ⟨s.takeWhile isBlank, after, ?_, List.all_takeWhile, all⟩
  rw [trim, trimEnd, ← split]
  exact (List.takeWhile_append_dropWhile).symm

theorem infix_trim (s : List Char) : trim s <:+: s := by
  obtain ⟨before, after, split, -, -⟩ := exists_append_trim s
  exact ⟨before, after, by rw [List.append_assoc, ← split]⟩

theorem dropLineEnds_concat {line : List Char} (whole : '\n' ∉ line) (noReturn : '\r' ∉ line) :
    dropLineEnds (line ++ ['\n']) = line := by
  rw [dropLineEnds, dropEnd_append (by rfl), dropEnd_eq_self]
  intro last isLast
  have mem := List.mem_of_getLast? isLast
  rw [Bool.or_eq_false_iff, beq_eq_false_iff_ne, beq_eq_false_iff_ne]
  exact ⟨fun same => noReturn (same ▸ mem), fun same => whole (same ▸ mem)⟩

/-- The end of a line counts for nothing when the line is blank. -/
theorem allBlank_dropLineEnds (line : List Char) : allBlank (dropLineEnds line) = allBlank line := by
  obtain ⟨ending, whole, isEnd⟩ := exists_append_dropEnd (fun c => c == '\r' || c == '\n') line
  have blank : ending.all isBlank = true := by
    rw [List.all_eq_true] at isEnd ⊢
    intro c mem
    have lineEnd := isEnd c mem
    rw [Bool.or_eq_true, beq_iff_eq, beq_iff_eq] at lineEnd
    rcases lineEnd with rfl | rfl <;> rfl
  conv_rhs => rw [whole]
  rw [allBlank, allBlank, List.all_append, blank, Bool.and_true, dropLineEnds]

end Text

end UiMarkdown
