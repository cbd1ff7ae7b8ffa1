import Mathlib.Data.List.TakeWhile
import UiMarkdown.Proofs.Text.Occurrence
import UiMarkdown.Template.Mask

/-!
# Stems and tokens

A stem is the shortest stem with its last letter repeated; its first letter
stands nowhere else in it, nor in what a token adds to it.  Hence no token can
overlap another one, and a token is found exactly where it was written.
-/

namespace UiMarkdown

namespace Mask

/-! ## Stems -/

def stemOf (growths : Nat) : List Char :=
  baseStem ++ List.replicate growths growth

def stemTail (growths : Nat) : List Char :=
  ['N', 'T', 'P', 'L'] ++ List.replicate growths growth

theorem stemOf_eq_cons (growths : Nat) : stemOf growths = 'H' :: stemTail growths :=
  rfl

theorem stemOf_ne_nil (growths : Nat) : stemOf growths ≠ [] :=
  List.cons_ne_nil _ _

theorem stemOf_succ (growths : Nat) : stemOf (growths + 1) = stemOf growths ++ [growth] := by
  rw [stemOf, stemOf, List.replicate_succ', List.append_assoc]

theorem head_not_mem_stemTail (growths : Nat) : 'H' ∉ stemTail growths := by
  rw [stemTail, List.mem_append, not_or]
  refine ⟨by decide, ?_⟩
  intro mem
  exact absurd (List.eq_of_mem_replicate mem) (by decide)

/-- With enough fuel a stem grows until it occurs in no text, and no further. -/
theorem growStem_stemOf {texts : List (List Char)} {bound : Nat}
    (bounded : ∀ text ∈ texts, text.length ≤ bound) (fuel growths : Nat)
    (enough : bound < fuel + growths) :
    ∃ final, growStem texts fuel (stemOf growths) = stemOf final ∧
      (∀ text ∈ texts, ¬ stemOf final <:+: text) ∧
      ∀ j, growths ≤ j → j < final → ∃ text ∈ texts, stemOf j <:+: text := by
  induction fuel generalizing growths with
  | zero =>
      refine ⟨growths, rfl, ?_, by omega⟩
      intro text mem occurs
      have long := occurs.length_le
      have short := bounded text mem
      simp [stemOf, baseStem] at long
      omega
  | succ fuel ih =>
      rw [growStem]
      by_cases taken : texts.any (Text.occurs (stemOf growths)) = true
      · rw [if_pos taken, ← stemOf_succ]
        obtain ⟨final, grown, fresh, least⟩ := ih (growths + 1) (by omega)
        refine ⟨final, grown, fresh, ?_⟩
        intro j from_growths below
        rcases Nat.eq_or_lt_of_le from_growths with rfl | later
        · obtain ⟨text, mem, occurs⟩ := List.any_eq_true.1 taken
          exact ⟨text, mem, Text.occurs_iff.1 occurs⟩
        · exact least j later below
      · rw [if_neg taken]
        refine ⟨growths, rfl, ?_, by omega⟩
        intro text mem occurs
        exact taken (List.any_eq_true.2 ⟨text, mem, Text.occurs_iff.2 occurs⟩)

/-- No text is longer than the greatest length. -/
theorem length_le_foldl_max (texts : List (List Char)) :
    ∀ text ∈ texts, text.length ≤ (texts.map List.length).foldl max 0 := by
  intro text mem
  have listed : text.length ∈ texts.map List.length := List.mem_map_of_mem mem
  rw [List.foldl_max_eq_max (List.ne_nil_of_mem listed)]
  exact Nat.le_trans (List.le_max_of_mem listed) (Nat.le_max_right _ _)

/-- The fresh stem is the least stem that occurs in none of the texts. -/
theorem freshStem_spec (texts : List (List Char)) :
    ∃ growths, freshStem texts = stemOf growths ∧
      (∀ text ∈ texts, ¬ stemOf growths <:+: text) ∧
      ∀ j < growths, ∃ text ∈ texts, stemOf j <:+: text := by
  obtain ⟨final, grown, fresh, least⟩ :=
    growStem_stemOf (length_le_foldl_max texts) ((texts.map List.length).foldl max 0 + 1) 0
      (by omega)
  exact ⟨final, grown, fresh, fun j below => least j (Nat.zero_le j) below⟩

/-! ## Tokens -/

theorem digitsValue_toDigits (n : Nat) : Literal.digitsValue (Nat.toDigits 10 n) = n := by
  have value := @Nat.ofDigitChars_ten_toDigits n
  simp only [Nat.ofDigitChars_eq_foldl, Nat.mul_comm 10] at value
  exact value

/-- A text starts with a token exactly when it is a stem, digits, the end of a token and more. -/
theorem readToken?_eq_some_iff {stem s digits rest : List Char} :
    readToken? stem s = some (digits, rest) ↔
      digits ≠ [] ∧ (∀ c ∈ digits, c.isDigit = true) ∧ s = stem ++ digits ++ tokenEnd :: rest := by
  constructor
  · intro read
    have whole := eq_append_of_readToken? read
    rw [readToken?] at read
    cases starts : stem.isPrefixOf? s with
    | none =>
        rw [starts] at read
        cases read
    | some body =>
        rw [starts] at read
        cases left : body.dropWhile Char.isDigit with
        | nil =>
            simp only [left] at read
            cases read
        | cons c after =>
            simp only [left] at read
            split at read
            · rename_i found
              obtain ⟨rfl, rfl⟩ := Prod.mk.inj (Option.some.inj read)
              rw [Bool.and_eq_true] at found
              exact ⟨by simpa using found.2, fun c mem => List.mem_takeWhile_imp mem, whole⟩
            · cases read
  · rintro ⟨nonempty, all, rfl⟩
    have split : (digits ++ tokenEnd :: rest).takeWhile Char.isDigit = digits := by
      rw [List.takeWhile_append_of_pos all]
      simp [tokenEnd]
    have left : (digits ++ tokenEnd :: rest).dropWhile Char.isDigit = tokenEnd :: rest := by
      rw [List.dropWhile_append_of_pos all]
      rfl
    rw [readToken?, List.append_assoc, List.isPrefixOf?_eq_some_iff_append_eq.2 rfl]
    simp only [split, left]
    simp [nonempty]

theorem isDigit_of_mem_toDigits (n : Nat) : ∀ c ∈ Nat.toDigits 10 n, c.isDigit = true :=
  fun _ mem => Nat.isDigit_of_mem_toDigits (by decide) (by decide) mem

/-- The token of a number is read back as its digits. -/
theorem readToken?_token (stem : List Char) (n : Nat) (rest : List Char) :
    readToken? stem (token stem n ++ rest) = some (Nat.toDigits 10 n, rest) := by
  rw [readToken?_eq_some_iff]
  exact ⟨Nat.toDigits_ne_nil, isDigit_of_mem_toDigits n, by simp [token]⟩

/-- A token is read whatever follows it. -/
theorem readToken?_append {stem s digits rest : List Char}
    (read : readToken? stem s = some (digits, rest)) (b : List Char) :
    readToken? stem (s ++ b) = some (digits, rest ++ b) := by
  obtain ⟨nonempty, all, whole⟩ := readToken?_eq_some_iff.1 read
  exact readToken?_eq_some_iff.2 ⟨nonempty, all, by simp [whole]⟩

theorem readToken?_eq_none_of_absent {stem s : List Char} (h : ¬ stem <+: s) :
    readToken? stem s = none := by
  cases read : readToken? stem s with
  | none => rfl
  | some found =>
      obtain ⟨digits, rest⟩ := found
      rw [eq_append_of_readToken? read, List.append_assoc] at h
      exact absurd (List.prefix_append _ _) h

/-- The first letter of a stem stands nowhere else in a token, whose characters are alphanumeric. -/
theorem exists_cons_of_digits (growths : Nat) {digits : List Char}
    (all : ∀ c ∈ digits, c.isDigit = true) :
    ∃ tail, stemOf growths ++ digits ++ [tokenEnd] = 'H' :: tail ∧ 'H' ∉ tail ∧
      ∀ c ∈ tail, c.isAlphanum = true := by
  refine ⟨stemTail growths ++ digits ++ [tokenEnd], by simp [stemOf_eq_cons], ?_, ?_⟩
  · rw [List.mem_append, List.mem_append, not_or, not_or]
    refine ⟨⟨head_not_mem_stemTail growths, ?_⟩, by decide⟩
    intro mem
    exact absurd (all _ mem) (by decide)
  · intro c mem
    rw [stemTail, List.mem_append, List.mem_append, List.mem_append] at mem
    rcases mem with ((letter | letter) | digit) | last
    · exact List.all_eq_true.1 (by decide : ['N', 'T', 'P', 'L'].all Char.isAlphanum = true) c letter
    · rw [List.eq_of_mem_replicate letter]
      decide
    · rw [Char.isAlphanum, all c digit, Bool.or_true]
    · rw [List.mem_singleton.1 last]
      decide

/-- A token is made of letters and digits. -/
theorem isAlphanum_of_mem_token {growths n : Nat} {c : Char}
    (mem : c ∈ token (stemOf growths) n) : c.isAlphanum = true := by
  obtain ⟨tail, shape, -, alphanum⟩ := exists_cons_of_digits growths (isDigit_of_mem_toDigits n)
  rw [token, shape, List.mem_cons] at mem
  rcases mem with rfl | later
  · decide
  · exact alphanum c later

/-- The first letter of a stem stands nowhere else in its tokens. -/
theorem token_stemOf_eq_cons (growths n : Nat) :
    ∃ tail, token (stemOf growths) n = 'H' :: tail ∧ 'H' ∉ tail := by
  obtain ⟨tail, shape, alone, -⟩ := exists_cons_of_digits growths (isDigit_of_mem_toDigits n)
  exact ⟨tail, shape, alone⟩

/-! ## Restoring tokens -/

@[simp] theorem restoreTokens_nil (mask : Mask) : mask.restoreTokens [] = [] := by
  rw [restoreTokens]
  split
  · rename_i read
    have whole := eq_append_of_readToken? read
    simp at whole
  · rfl

theorem restoreTokens_of_readToken? {mask : Mask} {s digits rest : List Char}
    (read : readToken? mask.stem s = some (digits, rest)) :
    mask.restoreTokens s = mask.spanOf digits ++ mask.restoreTokens rest := by
  rw [restoreTokens]
  split
  · rename_i digits' rest' read'
    rw [read] at read'
    obtain ⟨rfl, rfl⟩ := Prod.mk.inj (Option.some.inj read')
    rfl
  · rename_i read'
    rw [read] at read'
    cases read'

theorem restoreTokens_cons_of_readToken? {mask : Mask} {c : Char} {rest : List Char}
    (read : readToken? mask.stem (c :: rest) = none) :
    mask.restoreTokens (c :: rest) = c :: mask.restoreTokens rest := by
  rw [restoreTokens]
  split
  · rename_i read'
    rw [read] at read'
    cases read'
  · rfl

/-- The token of a span becomes the span. -/
theorem restoreTokens_token {mask : Mask} {n : Nat} {span : List Char}
    (found : mask.spans[n]? = some span) (rest : List Char) :
    mask.restoreTokens (token mask.stem n ++ rest) = span ++ mask.restoreTokens rest := by
  rw [restoreTokens_of_readToken? (readToken?_token mask.stem n rest), spanOf,
    digitsValue_toDigits, found]

/-- A text in which no stem starts stays. -/
theorem restoreTokens_append_of_not_startsIn {mask : Mask} {a b : List Char}
    (h : ¬ Text.StartsIn mask.stem a b) :
    mask.restoreTokens (a ++ b) = a ++ mask.restoreTokens b := by
  induction a with
  | nil => rfl
  | cons c a ih =>
      rw [Text.StartsIn.cons_iff, not_or] at h
      rw [List.cons_append, restoreTokens_cons_of_readToken? (readToken?_eq_none_of_absent h.1),
        ih h.2, List.cons_append]

theorem restoreTokens_of_absent {mask : Mask} {s : List Char} (h : ¬ mask.stem <:+: s) :
    mask.restoreTokens s = s := by
  have whole : ¬ Text.StartsIn mask.stem s [] := by
    rintro ⟨u, v, rfl, -, starts⟩
    rw [List.append_nil] at starts
    exact h (starts.isInfix.trans (List.suffix_append u v).isInfix)
  simpa using restoreTokens_append_of_not_startsIn whole

theorem restoreTokens_of_spans_eq_nil {mask : Mask} (spanless : mask.spans = []) (s : List Char) :
    mask.restoreTokens s = s := by
  fun_induction restoreTokens mask s with
  | case1 s digits rest read ih =>
      rw [ih, spanOf, spanless, List.getElem?_nil, eq_append_of_readToken? read]
      simp
  | case2 => rfl
  | case3 c rest _ ih => rw [ih]

/-- The shortcuts of restoring do not change its result. -/
theorem restore_eq_restoreTokens (mask : Mask) (s : List Char) :
    mask.restore s = mask.restoreTokens s := by
  rw [restore]
  split
  · rename_i short
    rw [Bool.or_eq_true, List.isEmpty_iff, Bool.not_eq_true', Text.occurs_eq_false_iff] at short
    rcases short with spanless | absent
    · exact (restoreTokens_of_spans_eq_nil spanless s).symm
    · exact (restoreTokens_of_absent absent).symm
  · rfl

theorem restore_of_unmasked {mask : Mask} (unmasked : mask.spans = []) (s : List Char) :
    mask.restore s = s := by
  rw [restore_eq_restoreTokens, restoreTokens_of_spans_eq_nil unmasked]

theorem restore_of_absent {mask : Mask} {s : List Char} (h : ¬ mask.stem <:+: s) :
    mask.restore s = s := by
  rw [restore_eq_restoreTokens, restoreTokens_of_absent h]

/--
Two adjoining texts may be restored one by one when no token that starts in the
first one ends in the second.
-/
theorem restoreTokens_append {mask : Mask} (a b : List Char)
    (apart : ∀ u v digits rest, a = u ++ v → v ≠ [] →
      readToken? mask.stem (v ++ b) = some (digits, rest) → b.length ≤ rest.length) :
    mask.restoreTokens (a ++ b) = mask.restoreTokens a ++ mask.restoreTokens b := by
  fun_induction restoreTokens mask a with
  | case1 a digits rest read ih =>
      rw [restoreTokens_of_readToken? (readToken?_append read b), List.append_assoc, ih]
      intro u v digits' rest' split
      refine apart (mask.stem ++ digits ++ tokenEnd :: u) v digits' rest' ?_
      simp [eq_append_of_readToken? read, split]
  | case2 => rfl
  | case3 c a alone ih =>
      rw [List.cons_append, List.cons_append, restoreTokens_cons_of_readToken?, ih]
      · intro u v digits rest split
        exact apart (c :: u) v digits rest (congrArg (List.cons c) split)
      · cases read : readToken? mask.stem (c :: (a ++ b)) with
        | none => rfl
        | some token =>
            -- the token would end in the first text and be found there
            obtain ⟨digits, rest⟩ := token
            obtain ⟨nonempty, all, whole⟩ := readToken?_eq_some_iff.1 read
            have behind : b <:+ rest := by
              refine List.suffix_of_suffix_length_le (List.suffix_append (c :: a) b) ?_
                (apart [] (c :: a) digits rest rfl (List.cons_ne_nil c a) read)
              rw [List.cons_append, whole]
              exact (List.suffix_cons tokenEnd rest).trans (List.suffix_append _ _)
            obtain ⟨rest, rfl⟩ := behind
            have inner : c :: a = mask.stem ++ digits ++ tokenEnd :: rest := by
              rw [← List.append_left_inj b, List.cons_append, whole]
              simp
            rw [readToken?_eq_some_iff.2 ⟨nonempty, all, inner⟩] at alone
            cases alone

end Mask

end UiMarkdown
