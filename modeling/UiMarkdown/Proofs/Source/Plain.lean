import UiMarkdown.Proofs.Compile.Prose
import UiMarkdown.Proofs.Source.Alone
import UiMarkdown.Proofs.Source.Fence

/-!
# Plain fences and prose

A fence in which nothing is escaped is read as its info and its body, and plain
prose as its paragraphs and headings.  Both stand alone.
-/

namespace UiMarkdown

open Markdown

/-! ## Fences -/

theorem Text.trimAscii_of_trim {s : List Char} (trimmed : trim s = s) : trimAscii s = s := by
  cases s with
  | nil => rfl
  | cons c s =>
      have solid : isAsciiBlank c = false := by
        by_contra blank
        rw [Bool.not_eq_false] at blank
        have letter := isBlank_of_trim_eq_cons trimmed
        rw [isBlank_of_isAsciiBlank blank] at letter
        cases letter
      have ends : trimEnd (c :: s) = c :: s := by rw [← trimmed, trimEnd_trim]
      rw [trimAscii, List.dropWhile_cons_of_neg (by rw [solid]; exact Bool.false_ne_true)]
      exact dropEnd_eq_self_of_imp ends fun _ => isBlank_of_isAsciiBlank

theorem Markdown.decodeEntities_of_not_mem {s : List Char} (plain : '&' ∉ s) :
    decodeEntities s = s := by
  rw [decodeEntities]
  induction s with
  | nil => rfl
  | cons c s ih =>
      rw [List.mem_cons, not_or] at plain
      have other : ¬ (c == '&') = true := by
        rw [beq_iff_eq]
        exact fun same => plain.1 same.symm
      rw [decodeAfter, if_neg other, ih plain.2]

theorem Markdown.unescape_of_not_mem {s : List Char} (plain : '\\' ∉ s) : unescape s = s := by
  induction s with
  | nil => rfl
  | cons c s ih =>
      rw [List.mem_cons, not_or] at plain
      rw [unescape, ih plain.2]
      rintro d rest rfl
      exact absurd rfl plain.1

namespace Fence

theorem endsLine_ended (body : List Char) : Text.EndsLine (ended body) := by
  rw [ended]
  cases last : body.getLast? with
  | none =>
      rw [List.getLast?_eq_none_iff.1 last]
      exact Text.endsLine_nil
  | some c =>
      by_cases feed : c = '\n'
      · rw [feed, if_pos (by simp), List.append_nil]
        rintro d isLast
        rw [last, feed, Option.mem_some_iff] at isLast
        exact isLast.symm
      · rw [if_neg]
        · exact Text.endsLine_append_feed body
        · rw [Bool.or_eq_true, List.isEmpty_iff, beq_iff_eq, Option.some_inj, not_or]
          refine ⟨?_, feed⟩
          rintro rfl
          cases last

theorem mem_ended {body : List Char} {c : Char} (mem : c ∈ ended body) : c ∈ body ∨ c = '\n' := by
  rw [ended, List.mem_append] at mem
  refine mem.imp_right fun mem => ?_
  split at mem
  · cases mem
  · exact List.mem_singleton.1 mem

/-- A line of a body is a part of it, whether or not its last line has ended. -/
theorem infix_of_mem_lines_ended {body line : List Char} (mem : line ∈ Text.lines (ended body)) :
    line <:+: body := by
  have inside := Text.infix_of_mem_lines mem
  rw [ended] at inside
  split at inside
  · rwa [List.append_nil] at inside
  · rcases (Text.infix_append_cons_iff (Text.feed_not_mem_of_mem_lines mem)).1 inside with
      inside | inside
    · exact inside
    · rw [List.infix_nil.1 inside]
      exact List.nil_infix

/-- An info in which nothing is decoded, and that does not go on with the marker before it. -/
structure PlainInfo (info : List Char) : Prop where
  plain : ∀ c ∈ info, c ∉ ['\n', '\r', '\x00', '&', '\\']
  apart : ¬ (info.head? = some '~' ∧ '\x60' ∈ info)
  trimmed : Text.trim info = info

/-- A body whose lines are clean. -/
def PlainBody (body : List Char) : Prop :=
  ∀ c ∈ body, c ∉ ['\r', '\x00']

-- characters are finitely many, and would all be gone through where the list is not named
instance (info : List Char) : Decidable (PlainInfo info) :=
  haveI : Decidable (∀ c ∈ info, c ∉ ['\n', '\r', '\x00', '&', '\\']) :=
    List.decidableBAll _ info
  decidable_of_iff ((∀ c ∈ info, c ∉ ['\n', '\r', '\x00', '&', '\\']) ∧
      ¬ (info.head? = some '~' ∧ '\x60' ∈ info) ∧ Text.trim info = info)
    ⟨fun ⟨plain, apart, trimmed⟩ => ⟨plain, apart, trimmed⟩,
      fun info => ⟨info.plain, info.apart, info.trimmed⟩⟩

instance (body : List Char) : Decidable (PlainBody body) :=
  (List.decidableBAll _ body : Decidable (∀ c ∈ body, c ∉ ['\r', '\x00']))

theorem PlainBody.return_not_mem {body : List Char} (plain : PlainBody body) :
    '\r' ∉ ended body := by
  intro mem
  rcases mem_ended mem with mem | same
  · exact plain _ mem (by simp)
  · cases same

/-- The lines of a fence, and what they are a draft of. -/
def block (info body : List Char) : List (List Char) × Shape :=
  (((around info body).marker ++ info) :: Text.lines (ended body) ++
    [(around info body).marker], .code true info (ended body))

theorem ofLines_block {info body : List Char} (plain : PlainBody body) :
    Text.ofLines (block info body).1 = write info body ++ ['\n'] := by
  rw [block, Text.ofLines_append, Text.ofLines_cons,
    Text.ofLines_lines (endsLine_ended body) plain.return_not_mem, Text.ofLines_cons,
    Text.ofLines_nil, write_eq]
  simp

/-- A line of a body does not close its fence. -/
theorem closesFence_eq_false {info body line : List Char} (inside : line <:+: body) :
    closesFence (around info body).mark (around info body).size
      (line.dropWhile Text.isSpaceOrTab) = false := by
  generalize isRun : (line.dropWhile Text.isSpaceOrTab).takeWhile
    (· == (around info body).mark) = run
  have replicate : run = List.replicate run.length (around info body).mark := by
    refine List.eq_replicate_iff.2 ⟨rfl, fun c mem => ?_⟩
    rw [← isRun] at mem
    exact beq_iff_eq.1 (List.mem_takeWhile_imp (p := (· == (around info body).mark)) mem)
  have occurs : run <:+: body := by
    rw [← isRun]
    exact (List.takeWhile_prefix _).isInfix.trans ((List.dropWhile_suffix _).isInfix.trans inside)
  rw [replicate] at occurs
  have short := lt_size_around occurs
  rw [closesFence, isRun, decide_eq_false (Nat.not_le_of_lt short), Bool.false_and]

variable {info body : List Char}

theorem readAs_block (tables : Bool) (plain : PlainInfo info) (clean : PlainBody body) :
    ReadAs tables (block info body).1 (block info body).2 := by
  have isMark : (around info body).mark = '\x60' ∧ '\x60' ∉ info ∨
      (around info body).mark = '~' := by
    rw [around_mark]
    by_cases backtick : '\x60' ∈ info
    · exact .inr (if_pos backtick)
    · exact .inl ⟨if_neg backtick, backtick⟩
  have decoded : unescape (Text.trimAscii (decodeEntities info)) = info := by
    rw [decodeEntities_of_not_mem fun mem => plain.plain _ mem (by simp),
      Text.trimAscii_of_trim plain.trimmed,
      unescape_of_not_mem fun mem => plain.plain _ mem (by simp)]
  have read := readAs_fence tables (three_le_size_around info body) isMark
    (takeWhile_around body plain.apart) (fun mem => plain.plain _ mem (by simp))
    fun line (mem : line ∈ Text.lines (ended body)) =>
      closesFence_eq_false (infix_of_mem_lines_ended mem)
  rw [decoded, Text.ofLines_lines (endsLine_ended body) clean.return_not_mem] at read
  exact read

theorem clean_block (plain : PlainInfo info) (clean : PlainBody body) :
    ∀ line ∈ (block info body).1, Text.CleanLine line := by
  have marker : Text.CleanLine (around info body).marker := by
    intro c mem
    rw [List.eq_of_mem_replicate mem, around_mark]
    split <;> decide
  have first : Text.CleanLine ((around info body).marker ++ info) := by
    intro c mem
    rcases List.mem_append.1 mem with mem | mem
    · exact marker c mem
    · have other := plain.plain c mem
      simp only [List.mem_cons, not_or] at other ⊢
      exact ⟨other.1, other.2.1, other.2.2.1, List.not_mem_nil⟩
  have inside : ∀ line ∈ Text.lines (ended body), Text.CleanLine line := by
    intro line isLine c mem
    have noFeed : c ≠ '\n' := by
      rintro rfl
      exact Text.feed_not_mem_of_mem_lines isLine mem
    rw [List.mem_cons, not_or]
    exact ⟨noFeed, clean c ((infix_of_mem_lines_ended isLine).subset mem)⟩
  rw [block, List.cons_append, List.forall_mem_cons, List.forall_mem_append,
    List.forall_mem_singleton]
  exact ⟨first, inside, marker⟩

/-- The first line of a fence opens it, and only its last line closes it. -/
theorem passes_block (plain : PlainInfo info) (clean : PlainBody body) :
    Passes (block info body).1 := by
  have content : ∀ line ∈ (block info body).1, Text.dropLineEnds (line ++ ['\n']) = line :=
    fun line mem => (clean_block plain clean line mem).dropLineEnds
  rw [block, List.cons_append, List.forall_mem_cons, List.forall_mem_append,
    List.forall_mem_singleton] at content
  obtain ⟨first, inside, last⟩ := content
  have steady : ∀ line ∈ Text.lines (ended body),
      after (some (around info body)) (Text.dropLineEnds (line ++ ['\n'])) =
        some (around info body) := by
    intro line mem
    rw [inside line mem, after, closedBy_eq_false (infix_of_mem_lines_ended mem),
      if_neg Bool.false_ne_true]
  obtain ⟨blank, same⟩ := separateLines_of_steady steady
    (Text.allBlank ((around info body).marker ++ info))
  have opened : after none ((around info body).marker ++ info) = some (around info body) :=
    opening?_around body plain.apart
  have closed : after (some (around info body)) (around info body).marker = none := by
    rw [after, closedBy_marker, if_pos rfl]
  have noGap : needsGap none true ((around info body).marker ++ info) = false :=
    Bool.and_false _
  have noGap' : needsGap (some (around info body)) blank (around info body).marker = false := rfl
  refine ⟨Text.allBlank (around info body).marker, fun rest => ?_⟩
  rw [block]
  generalize (around info body).marker ++ info = top at first opened noGap same ⊢
  rw [List.cons_append, List.map_cons, List.map_append, List.map_singleton, List.cons_append,
    List.append_assoc, separateLines, first, noGap, if_neg Bool.false_ne_true, opened, same,
    List.singleton_append, separateLines, last, noGap', if_neg Bool.false_ne_true, closed]
  simp

theorem standsAlone_block (tables : Bool) (plain : PlainInfo info) (clean : PlainBody body) :
    StandsAlone tables (block info body) where
  read := readAs_block tables plain clean
  passes := passes_block plain clean
  clean := clean_block plain clean
  starts := by
    obtain ⟨n, size⟩ : ∃ n, (around info body).size = n + 1 :=
      Nat.exists_eq_succ_of_ne_zero (Nat.succ_ne_zero _)
    refine ⟨(around info body).mark, List.replicate n (around info body).mark ++ info,
      Text.lines (ended body) ++ [(around info body).marker], ?_, ?_⟩
    · rw [block, marker, size, List.replicate_succ, List.cons_append, List.cons_append]
    · rw [around_mark]
      split <;> decide

/-- A line opens no fence unless it starts with a space or with the character of a marker. -/
theorem opening?_of_cons {c : Char} {rest : List Char} (other : c ∉ [' ', '\x60', '~']) :
    opening? (c :: rest) = none := by
  cases opened : opening? (c :: rest) with
  | none => rfl
  | some fence =>
      obtain ⟨after, found⟩ : ∃ after, read? (c :: rest) = some (fence, after) := by
        rw [opening?] at opened
        split at opened
        · rename_i fence' after found
          split at opened
          · cases opened
          · cases opened
            exact ⟨after, found⟩
        · cases opened
      obtain ⟨spaces, -, long, isMark, whole⟩ := eq_of_read? found
      refine absurd ?_ other
      cases spaces with
      | zero =>
          obtain ⟨n, size⟩ : ∃ n, fence.size = n + 1 := ⟨fence.size - 1, by omega⟩
          rw [size, List.replicate_zero, List.nil_append, List.replicate_succ, List.cons_append,
            List.cons.injEq] at whole
          rw [whole.1]
          rcases isMark with same | same <;> simp [same]
      | succ n =>
          rw [List.replicate_succ, List.cons_append, List.cons.injEq] at whole
          simp [whole.1]

end Fence

/-! ## Prose -/

namespace Prose.Plain

variable {part : Prose}

/-- The lines of prose are clean, and their first characters open no fence. -/
theorem of_mem_lines (plain : part.Plain) {line : List Char} (mem : line ∈ part.block.1) :
    Text.CleanLine line ∧ ∃ c rest, line = c :: rest ∧ c ∉ [' ', '\x60', '~', '\uFEFF'] := by
  have clean {s : List Char} (text : PlainText s) : Text.CleanLine s := by
    intro c mem inside
    have stands := text.plain c mem
    simp only [List.mem_cons, List.not_mem_nil, or_false] at inside
    rcases inside with rfl | rfl | rfl <;> cases stands
  cases part with
  | paragraph lines =>
      have text := plain.2 line mem
      refine ⟨clean text.toPlainText, ?_⟩
      obtain ⟨c, rest, rfl, opens⟩ := text.exists_cons
      refine ⟨c, rest, rfl, fun inside => ?_⟩
      simp only [List.mem_cons, List.not_mem_nil, or_false] at inside
      rcases inside with rfl | rfl | rfl | rfl <;> exact absurd opens (by decide)
  | heading level title =>
      obtain ⟨positive, -, text⟩ := plain
      obtain ⟨n, rfl⟩ : ∃ n, level = n + 1 := ⟨level - 1, by omega⟩
      rw [block, List.mem_singleton] at mem
      subst mem
      refine ⟨fun c mem => ?_, '#', _, rfl, by decide⟩
      rw [List.mem_append, List.mem_cons] at mem
      rcases mem with mem | rfl | mem
      · rw [List.eq_of_mem_replicate mem]
        decide
      · decide
      · exact clean text.toPlainText c mem

theorem standsAlone (plain : part.Plain) (tables : Bool) : StandsAlone tables part.block where
  read := plain.readAs tables
  passes := by
    refine Fence.separateLines_of_steady (fun line mem => ?_) true
    obtain ⟨clean, c, rest, rfl, other⟩ := plain.of_mem_lines mem
    rw [clean.dropLineEnds]
    refine Fence.opening?_of_cons fun inside => other ?_
    simp only [List.mem_cons, List.not_mem_nil, or_false] at inside ⊢
    tauto
  clean := fun _ mem => (plain.of_mem_lines mem).1
  starts := by
    obtain ⟨line, lines, split⟩ : ∃ line lines, part.block.1 = line :: lines := by
      obtain ⟨front, last, split, -⟩ := plain.exists_lines
      exact List.exists_cons_of_ne_nil (split ▸ List.concat_ne_nil _ _)
    obtain ⟨-, c, rest, rfl, other⟩ := plain.of_mem_lines (split ▸ List.mem_cons_self)
    exact ⟨c, rest, lines, split, fun same => other (by simp [same])⟩

end Prose.Plain

end UiMarkdown
