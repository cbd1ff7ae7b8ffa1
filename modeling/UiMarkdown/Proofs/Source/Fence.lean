import Mathlib.Data.List.TakeWhile
import UiMarkdown.Proofs.Source.Rebuild

/-!
# Written fences

A written fence opens with its info, and the first line that closes it is its
last one: the marker is longer than every run of its character in the body.
The exception is an info with a backtick that starts with a tilde, which makes
the marker of tildes before it longer than the one at the end.
-/

namespace UiMarkdown

namespace Fence

/-! ## Runs -/

/-- A run at the start of a text continues the one before it. -/
theorem add_length_takeWhile_le_longestRun (mark : Char) (current : Nat) (s : List Char) :
    current + (s.takeWhile (· == mark)).length ≤ longestRun mark current s := by
  induction s generalizing current with
  | nil => exact Nat.le_refl current
  | cons c s ih =>
      rw [longestRun]
      cases same : c == mark with
      | true =>
          have longer := ih (current + 1)
          rw [List.takeWhile_cons_of_pos (p := (· == mark)) same, List.length_cons, if_pos rfl]
          omega
      | false =>
          rw [List.takeWhile_cons_of_neg (p := (· == mark)) (Bool.eq_false_iff.1 same),
            if_neg Bool.false_ne_true]
          exact Nat.le_max_left current _

/-- No run of a text is longer than its longest one. -/
theorem le_longestRun {mark : Char} {n : Nat} (current : Nat) {s : List Char}
    (run : List.replicate n mark <:+: s) : n ≤ longestRun mark current s := by
  induction s generalizing current with
  | nil =>
      have none := List.infix_nil.1 run
      rw [List.replicate_eq_nil_iff] at none
      exact none ▸ Nat.zero_le _
  | cons c s ih =>
      rcases List.infix_cons_iff.1 run with ⟨rest, starts⟩ | later
      · have all : ∀ d ∈ List.replicate n mark, (d == mark) = true := by
          intro d mem
          rw [List.eq_of_mem_replicate mem, beq_self_eq_true]
        have long := add_length_takeWhile_le_longestRun mark current (c :: s)
        rw [← starts, List.takeWhile_append_of_pos all, List.length_append,
          List.length_replicate, starts] at long
        omega
      · rw [longestRun]
        split
        · exact ih (current + 1) later
        · exact Nat.le_trans (ih 0 later) (Nat.le_max_right current _)

theorem around_mark (info body : List Char) :
    (around info body).mark = if '\x60' ∈ info then '~' else '\x60' := by
  simp [around]

theorem isMark_around (info body : List Char) :
    ((around info body).mark == '\x60' || (around info body).mark == '~') = true := by
  rw [around_mark]
  split <;> rfl

/-- The marker around a body has no run of its length in the body, and is a fence. -/
theorem three_le_size_around (info body : List Char) : 3 ≤ (around info body).size :=
  Nat.succ_le_succ (Nat.le_max_right _ 2)

theorem lt_size_around {info body : List Char} {n : Nat}
    (run : List.replicate n (around info body).mark <:+: body) : n < (around info body).size :=
  Nat.lt_succ_of_le (Nat.le_trans (le_longestRun 0 run) (Nat.le_max_left _ 2))

/-- The info of a fence does not go on with its marker. -/
theorem takeWhile_around {info : List Char} (body : List Char)
    (apart : ¬ (info.head? = some '~' ∧ '\x60' ∈ info)) :
    info.takeWhile (· == (around info body).mark) = [] := by
  cases info with
  | nil => rfl
  | cons c rest =>
      refine List.takeWhile_cons_of_neg ?_
      rw [around_mark, beq_iff_eq]
      split
      · rename_i backtick
        rintro rfl
        exact apart ⟨rfl, backtick⟩
      · rename_i plain
        rintro rfl
        exact plain List.mem_cons_self

/-! ## Lines with a marker -/

/-- A marker with more of its character behind it is read as one fence. -/
theorem read?_marker_append {fence : Fence} (isMark : (fence.mark == '\x60' || fence.mark == '~'))
    (long : 3 ≤ fence.size) (rest : List Char) :
    read? (fence.marker ++ rest) =
      some (⟨fence.mark, fence.size + (rest.takeWhile (· == fence.mark)).length⟩,
        rest.dropWhile (· == fence.mark)) := by
  obtain ⟨mark, size⟩ := fence
  dsimp only at isMark long ⊢
  obtain ⟨size, rfl⟩ : ∃ n, size = n + 1 := ⟨size - 1, by omega⟩
  have solid : (mark == ' ') = false := by
    rw [Bool.or_eq_true, beq_iff_eq, beq_iff_eq] at isMark
    rcases isMark with rfl | rfl <;> rfl
  have all : ∀ d ∈ List.replicate size mark, (d == mark) = true := by
    intro d mem
    rw [List.eq_of_mem_replicate mem, beq_self_eq_true]
  have run : ((List.replicate size mark ++ rest).takeWhile (· == mark)).length + 1 =
      size + 1 + (rest.takeWhile (· == mark)).length := by
    rw [List.takeWhile_append_of_pos all, List.length_append, List.length_replicate]
    omega
  rw [marker, List.replicate_succ, List.cons_append, read?]
  simp only [List.takeWhile_cons, List.dropWhile_cons, solid, Bool.false_eq_true, if_false]
  rw [if_neg (by simp), if_pos isMark, run, if_pos (by omega), List.dropWhile_append_of_pos all]

/-- What a line with a fence starts with. -/
theorem eq_of_read? {line rest : List Char} {fence : Fence}
    (found : read? line = some (fence, rest)) :
    ∃ spaces ≤ 3, 3 ≤ fence.size ∧ (fence.mark = '\x60' ∨ fence.mark = '~') ∧
      line = List.replicate spaces ' ' ++ (List.replicate fence.size fence.mark ++ rest) := by
  have run (c : Char) (s : List Char) :
      s = List.replicate (s.takeWhile (· == c)).length c ++ s.dropWhile (· == c) := by
    have all : s.takeWhile (· == c) = List.replicate (s.takeWhile (· == c)).length c :=
      List.eq_replicate_iff.2
        ⟨rfl, fun d mem => beq_iff_eq.1 (List.mem_takeWhile_imp (p := (· == c)) mem)⟩
    rw [← all, List.takeWhile_append_dropWhile]
  have spaced := run ' ' line
  unfold read? at found
  dsimp only at found
  split at found
  · cases found
  · rename_i few
    split at found
    · cases found
    · rename_i c after isRest
      split at found
      · rename_i isMark
        split at found
        · rename_i long
          cases found
          rw [Bool.or_eq_true, beq_iff_eq, beq_iff_eq] at isMark
          refine ⟨_, Nat.le_of_not_lt few, long, isMark, ?_⟩
          rw [isRest] at spaced
          rw [List.replicate_succ, List.cons_append, ← run c after]
          exact spaced
        · cases found
      · cases found

/-- A line that starts with a fence has a run of its length. -/
theorem infix_of_read? {line rest : List Char} {fence : Fence}
    (found : read? line = some (fence, rest)) :
    List.replicate fence.size fence.mark <:+: line := by
  obtain ⟨spaces, -, -, -, rfl⟩ := eq_of_read? found
  exact (List.prefix_append _ rest).isInfix.trans (List.suffix_append _ _).isInfix

/-- A fence of a body's own is closed by no line of the body. -/
theorem closedBy_eq_false {info body line : List Char} (inside : line <:+: body) :
    (around info body).closedBy line = false := by
  rw [closedBy]
  split
  · rename_i other rest found
    have run := infix_of_read? found
    cases same : other.mark == (around info body).mark with
    | false => rfl
    | true =>
        rw [beq_iff_eq.1 same] at run
        have short := lt_size_around (run.trans inside)
        have longer : decide ((around info body).size ≤ other.size) = false :=
          decide_eq_false (Nat.not_le_of_lt short)
        rw [longer]
        rfl
  · rfl

/-- An info that does not go on with the marker is read as it was written. -/
theorem read?_around {info : List Char} (body : List Char)
    (apart : ¬ (info.head? = some '~' ∧ '\x60' ∈ info)) :
    read? ((around info body).marker ++ info) = some (around info body, info) := by
  have stops := takeWhile_around body apart
  have left : info.dropWhile (· == (around info body).mark) = info := by
    have whole : info.takeWhile (· == (around info body).mark) ++
        info.dropWhile (· == (around info body).mark) = info :=
      List.takeWhile_append_dropWhile
    rwa [stops, List.nil_append] at whole
  rw [read?_marker_append (isMark_around info body) (three_le_size_around info body), stops, left,
    List.length_nil, Nat.add_zero]

theorem opening?_around {info : List Char} (body : List Char)
    (apart : ¬ (info.head? = some '~' ∧ '\x60' ∈ info)) :
    opening? ((around info body).marker ++ info) = some (around info body) := by
  rw [opening?, read?_around body apart]
  dsimp only
  rw [if_neg]
  rw [Bool.and_eq_true, beq_iff_eq, List.contains_iff_mem, around_mark]
  rintro ⟨isBacktick, mem⟩
  rw [if_pos mem] at isBacktick
  cases isBacktick

theorem closedBy_marker (info body : List Char) :
    (around info body).closedBy (around info body).marker = true := by
  have last := read?_marker_append (isMark_around info body) (three_le_size_around info body) []
  rw [List.append_nil] at last
  rw [closedBy, last]
  simp [Text.allBlank]

/-! ## Lines of a written fence -/

/-- The lines of a text, without their ends, as fences are looked for in them. -/
def contents (s : List Char) : List (List Char) :=
  (Text.linesWithEnds s).map Text.dropLineEnds

theorem linesWithEnds_line {line : List Char} (inside : '\n' ∉ line) :
    Text.linesWithEnds (line ++ ['\n']) = [line ++ ['\n']] ∧
      (line ≠ [] → Text.linesWithEnds line = [line]) := by
  rw [Text.linesWithEnds_eq_singleton_iff, Text.linesWithEnds_eq_singleton_iff, List.dropLast_concat]
  exact ⟨⟨List.concat_ne_nil _ _, inside⟩,
    fun nonempty => ⟨nonempty, fun mem => inside ((List.dropLast_subset line) mem)⟩⟩

/-- A text without white space at its end does not end in a line end. -/
theorem dropLineEnds_eq_self {s : List Char} (trimmed : Text.trimEnd s = s) :
    Text.dropLineEnds s = s := by
  refine Text.dropEnd_eq_self_of_imp trimmed fun c lineEnd => ?_
  rw [Bool.or_eq_true, beq_iff_eq, beq_iff_eq] at lineEnd
  rcases lineEnd with rfl | rfl <;> rfl

theorem dropLineEnds_line {line : List Char} (trimmed : Text.trimEnd line = line) :
    Text.dropLineEnds (line ++ ['\n']) = line := by
  rw [Text.dropLineEnds, Text.dropEnd_append (by rfl)]
  exact dropLineEnds_eq_self trimmed

theorem write_eq (info body : List Char) :
    write info body =
      (around info body).marker ++ info ++ '\n' :: ended body ++ (around info body).marker := by
  simp [write, ended]

/-- The lines of a written fence are its marker with the info, its body and its marker. -/
theorem contents_write {info body : List Char} (oneLine : '\n' ∉ info)
    (trimmed : Text.trimEnd info = info) (ends : Text.EndsLine body) :
    contents (write info body) =
      ((around info body).marker ++ info) :: contents body ++ [(around info body).marker] := by
  have solid : ∀ c ∈ (around info body).marker, Text.isBlank c = false ∧ c ≠ '\n' := by
    intro c mem
    rw [List.eq_of_mem_replicate mem, around_mark]
    split <;> decide
  have markerLine : '\n' ∉ (around info body).marker := fun mem => (solid _ mem).2 rfl
  have markerTrimmed := Text.trimEnd_eq_self_of_forall fun c mem => (solid c mem).1
  have nonempty : (around info body).marker ≠ [] := by
    rw [marker, ne_eq, List.replicate_eq_nil_iff]
    exact Nat.succ_ne_zero _
  have firstLine : '\n' ∉ (around info body).marker ++ info := by
    rw [List.mem_append, not_or]
    exact ⟨markerLine, oneLine⟩
  have firstTrimmed : Text.trimEnd ((around info body).marker ++ info) =
      (around info body).marker ++ info := by
    by_cases none : info = []
    · rw [none, List.append_nil]
      exact none ▸ markerTrimmed
    · rw [Text.trimEnd_append (trimmed.symm ▸ none), trimmed]
  have whole : write info body = ((around info body).marker ++ info ++ ['\n']) ++
      (body ++ (around info body).marker) := by
    rw [write_eq, ended_of_endsLine ends]
    simp
  rw [contents, whole, Text.linesWithEnds_append (Text.endsLine_append_feed _),
    (linesWithEnds_line firstLine).1, Text.linesWithEnds_append ends,
    (linesWithEnds_line markerLine).2 nonempty]
  simp only [List.map_append, List.map_cons, List.map_nil, dropLineEnds_line firstTrimmed,
    dropLineEnds_eq_self markerTrimmed, List.cons_append, List.nil_append, contents]

/--
A scan of a written fence finds its info on the first line, no end of it in the
body, and its end on the last line.
-/
def ClosesAtEnd (info body : List Char) : Prop :=
  ∃ first last fence, contents (write info body) = first :: contents body ++ [last] ∧
    read? first = some (fence, info) ∧ opening? first = some fence ∧
    (∀ line ∈ contents body, fence.closedBy line = false) ∧ fence.closedBy last = true

/-- A written fence closes at its end unless tildes at the start of its info add to its marker. -/
theorem closesAtEnd_iff_of_trimmed {info body : List Char} (oneLine : '\n' ∉ info)
    (trimmed : Text.trimEnd info = info) (ends : Text.EndsLine body) :
    ClosesAtEnd info body ↔ ¬ (info.head? = some '~' ∧ '\x60' ∈ info) := by
  have lines := contents_write oneLine trimmed ends
  have read := read?_marker_append (isMark_around info body) (three_le_size_around info body) info
  have mark := around_mark info body
  constructor
  · rintro ⟨first, last, fence, lines', read', -⟩ ⟨tilde, backtick⟩
    rw [lines', List.cons_append, List.cons_append, List.cons.injEq] at lines
    rw [lines.1, read, Option.some_inj, Prod.mk.injEq] at read'
    obtain ⟨rest, rfl⟩ := List.head?_eq_some_iff.1 tilde
    have shorter := congrArg List.length read'.2
    rw [mark, if_pos backtick, List.dropWhile_cons_of_pos (by rfl), List.length_cons] at shorter
    have bound := (List.dropWhile_suffix (l := rest) (· == '~')).length_le
    omega
  · intro apart
    have read := read?_around body apart
    refine ⟨_, _, around info body, lines, read, opening?_around body apart, ?_,
      closedBy_marker info body⟩
    intro line mem
    obtain ⟨whole, isLine, rfl⟩ := List.mem_map.1 mem
    obtain ⟨before, after, split, -⟩ := Text.exists_of_mem_linesWithEnds isLine
    obtain ⟨ending, content, -⟩ :=
      Text.exists_append_dropEnd (fun c => c == '\r' || c == '\n') whole
    refine closedBy_eq_false ⟨before, ending ++ after, ?_⟩
    rw [split]
    conv_rhs => rw [content]
    simp [Text.dropLineEnds]

end Fence

namespace CodeInfo

/-- The written info of a code sample has no white space around it. -/
theorem trim_toInfo_ofInfo (info : List Char) :
    Text.trim (ofInfo info).toInfo = (ofInfo info).toInfo := by
  rcases ofInfo_cases info with ⟨-, shape⟩ | ⟨lang, b, more, whole, letters, blank, kept, shape⟩
  · rw [shape, toInfo, String.toList_ofList, Text.trim_trim]
  · have ends : Text.trimEnd (lang ++ ' ' :: Text.trim more) = lang ++ ' ' :: Text.trim more := by
      rw [← List.singleton_append, ← List.append_assoc, Text.trimEnd_append, Text.trimEnd_trim]
      rwa [Text.trimEnd_trim]
    rw [shape, toInfo_some]
    cases lang with
    | nil =>
        -- the trimmed info would start with white space
        rw [List.nil_append] at whole
        rw [Text.isBlank_of_trim_eq_cons whole] at blank
        cases blank
    | cons c lang => exact Text.trim_eq_self (letters c List.mem_cons_self) ends

end CodeInfo

/-- The infos that nodes are written with: names of constructs, and those of code samples. -/
inductive WrittenInfo : List Char → Prop where
  | leaf (kind : Leaf) : WrittenInfo kind.tag.toList
  | opening (kind : Container) : WrittenInfo kind.openTag.toList
  | closing (kind : Container) : WrittenInfo kind.closeTag.toList
  | code {info : List Char} {code : CodeInfo} (read : Directive.ofInfo info = .code code) :
      WrittenInfo code.toInfo

theorem WrittenInfo.trimmed {info : List Char} (written : WrittenInfo info) :
    Text.trim info = info := by
  cases written with
  | leaf kind => cases kind <;> rfl
  | opening kind => cases kind <;> rfl
  | closing kind => cases kind <;> rfl
  | code read =>
      rw [(Directive.ofInfo_eq_code_iff.1 read).2]
      exact CodeInfo.trim_toInfo_ofInfo _

theorem WrittenInfo.trimEnd {info : List Char} (written : WrittenInfo info) :
    Text.trimEnd info = info := by
  rw [← written.trimmed, Text.trimEnd_trim]

/--
The fence that is written for a node closes at its end exactly if its info does
not both start with a tilde and have a backtick.
-/
theorem Fence.closesAtEnd_iff {info body : List Char} (written : WrittenInfo info)
    (oneLine : '\n' ∉ info) (ends : Text.EndsLine body) :
    ClosesAtEnd info body ↔ ¬ (info.head? = some '~' ∧ '\x60' ∈ info) :=
  closesAtEnd_iff_of_trimmed oneLine written.trimEnd ends

/-- Tildes are taken for an info with a backtick, and they outgrow the tildes in the body. -/
theorem Fence.closesAtEnd_of_backtick :
    let info := "a\x60b c".toList
    let body := "~~~~\n\x60\x60\x60\n".toList
    WrittenInfo info ∧ '\n' ∉ info ∧ Text.EndsLine body ∧
      ¬ (info.head? = some '~' ∧ '\x60' ∈ info) ∧ ClosesAtEnd info body := by
  intro info body
  have read : Directive.ofInfo "a\x60b  c".toList = .code (CodeInfo.ofInfo "a\x60b  c".toList) := by
    decide +kernel
  have written : WrittenInfo (CodeInfo.ofInfo "a\x60b  c".toList).toInfo := .code read
  have oneLine : '\n' ∉ info := by decide
  have ends : Text.EndsLine body := by
    intro last isLast
    rw [show body.getLast? = some '\n' from by decide, Option.mem_some_iff] at isLast
    exact isLast.symm
  have apart : ¬ (info.head? = some '~' ∧ '\x60' ∈ info) := by decide
  exact ⟨written, oneLine, ends, apart, (closesAtEnd_iff written oneLine ends).2 apart⟩

/-- An info that a fence of tildes can have, and that opens a longer fence when it is written. -/
theorem Fence.not_closesAtEnd_of_tilde :
    let info := "~\x60a".toList
    WrittenInfo info ∧ '\n' ∉ info ∧ ¬ ClosesAtEnd info "x\n".toList := by
  intro info
  have read : Directive.ofInfo info = .code (CodeInfo.ofInfo info) := by decide +kernel
  have written : WrittenInfo (CodeInfo.ofInfo info).toInfo := .code read
  have oneLine : '\n' ∉ info := by decide
  have ends : Text.EndsLine "x\n".toList := Text.endsLine_append_feed ['x']
  refine ⟨written, oneLine, ?_⟩
  rw [closesAtEnd_iff_of_trimmed oneLine (by rfl) ends]
  exact not_not.2 ⟨rfl, by decide⟩

end UiMarkdown
