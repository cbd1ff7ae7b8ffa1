import Mathlib.Data.List.ReduceOption
import UiMarkdown.Proofs.Markdown.Line
import UiMarkdown.Proofs.Mask.Restored
import UiMarkdown.Proofs.Source.Boundary

/-!
# Where the lines of a body stand in the source

The parser counts lines in a text that is not the source: frontmatter is cut off, expressions
are masked, and blank lines are put before fences.  None of this moves the end of a line, so
what the parser has read when it is through with a line is a beginning of the source.
-/

namespace UiMarkdown

/-! ## The first lines of a text -/

namespace Markdown

def takeLines : Nat → List Char → List Char
  | 0, _ => []
  | n + 1, '\r' :: '\n' :: rest => '\r' :: '\n' :: takeLines n rest
  | n + 1, '\r' :: rest => '\r' :: takeLines n rest
  | n + 1, '\n' :: rest => '\n' :: takeLines n rest
  | n + 1, c :: rest => c :: takeLines (n + 1) rest
  | _ + 1, [] => []

theorem prefix_takeLines (n : Nat) (s : List Char) : takeLines n s <+: s := by
  fun_induction takeLines n s with
  | case1 => exact List.nil_prefix
  | case2 n rest ih => exact (List.prefix_append_right_inj ['\r', '\n']).2 ih
  | case3 n rest _ ih | case4 n rest ih | case5 n c rest _ _ _ ih =>
      exact List.cons_prefix_cons.2 ⟨rfl, ih⟩
  | case6 => exact List.prefix_rfl

theorem takeLines_mono {n m : Nat} (le : n ≤ m) (s : List Char) :
    takeLines n s <+: takeLines m s := by
  fun_induction takeLines n s generalizing m with
  | case1 => exact List.nil_prefix
  | case2 n rest ih =>
      obtain ⟨m, rfl⟩ := Nat.exists_eq_add_one_of_ne_zero (Nat.ne_zero_of_lt le)
      rw [takeLines]
      exact (List.prefix_append_right_inj ['\r', '\n']).2 (ih (Nat.le_of_succ_le_succ le))
  | case3 n rest alone ih =>
      obtain ⟨m, rfl⟩ := Nat.exists_eq_add_one_of_ne_zero (Nat.ne_zero_of_lt le)
      rw [takeLines]
      · exact List.cons_prefix_cons.2 ⟨rfl, ih (Nat.le_of_succ_le_succ le)⟩
      · exact alone
  | case4 n rest ih =>
      obtain ⟨m, rfl⟩ := Nat.exists_eq_add_one_of_ne_zero (Nat.ne_zero_of_lt le)
      rw [takeLines]
      exact List.cons_prefix_cons.2 ⟨rfl, ih (Nat.le_of_succ_le_succ le)⟩
  | case5 n c rest noBoth noReturn noFeed ih =>
      obtain ⟨m, rfl⟩ := Nat.exists_eq_add_one_of_ne_zero (Nat.ne_zero_of_lt le)
      rw [takeLines]
      · exact List.cons_prefix_cons.2 ⟨rfl, ih le⟩
      · exact noBoth
      · exact noReturn
      · exact noFeed
  | case6 => exact List.nil_prefix

/-- The lines of the first lines of a text are its first lines. -/
theorem cutLines_takeLines (n : Nat) (s : List Char) :
    cutLines (takeLines n s) = (cutLines s).take n := by
  fun_induction takeLines n s with
  | case1 => rfl
  | case2 n rest ih => rw [cutLines, cutLines, ih, List.take_succ_cons]
  | case3 n rest alone ih =>
      rw [cutLines, cutLines, ih, List.take_succ_cons]
      · exact alone
      · intro after behind
        obtain ⟨more, whole⟩ := prefix_takeLines n rest
        exact alone (after ++ more) (by rw [← whole, behind, List.cons_append])
  | case4 n rest ih => rw [cutLines, cutLines, ih, List.take_succ_cons]
  | case5 n c rest noBoth noReturn noFeed ih =>
      rw [cutLines, cutLines, ih]
      · cases cutLines rest with
        | nil => rw [List.take_nil, Text.consLine, List.take_succ_cons, List.take_nil]
        | cons line more => rfl
      · exact noBoth
      · exact noReturn
      · exact noFeed
      · exact fun _ same _ => noReturn same
      · exact noReturn
      · exact noFeed
  | case6 => rfl

def Ended (s : List Char) : Prop :=
  ∀ c ∈ s.getLast?, c = '\r' ∨ c = '\n'

theorem Ended.cons {c : Char} {s : List Char} (ended : Ended s)
    (here : s = [] → c = '\r' ∨ c = '\n') : Ended (c :: s) := by
  cases s with
  | nil =>
      rintro d ⟨⟩
      exact here rfl
  | cons d s =>
      intro e last
      rw [List.getLast?_cons_cons] at last
      exact ended e last

/-- The first lines of a text are the whole text, or the last of them has its end. -/
theorem takeLines_ended (n : Nat) (s : List Char) :
    takeLines n s = s ∨ Ended (takeLines n s) := by
  fun_induction takeLines n s with
  | case1 => exact .inr (by rintro c ⟨⟩)
  | case2 n rest ih =>
      refine ih.imp (congrArg ('\r' :: '\n' :: ·)) fun ended => ?_
      exact (ended.cons fun _ => .inr rfl).cons fun _ => .inl rfl
  | case3 n rest _ ih => exact ih.imp (congrArg _) fun ended => ended.cons fun _ => .inl rfl
  | case4 n rest ih => exact ih.imp (congrArg _) fun ended => ended.cons fun _ => .inr rfl
  | case5 n c rest _ _ _ ih =>
      by_cases last : rest = []
      · exact .inl (by rw [last, takeLines])
      · refine ih.imp (congrArg _) fun ended => ended.cons fun empty => ?_
        have none := cutLines_takeLines (n + 1) rest
        rw [empty, cutLines, eq_comm, List.take_eq_nil_iff] at none
        exact absurd (none.resolve_left (Nat.succ_ne_zero n)) (cutLines_ne_nil last)
  | case6 => exact .inl rfl

end Markdown

/-! ## Separated texts -/

namespace Fence

/-- The characters of separated lines; the line feeds that are put in are `none`. -/
def markedLines : (opened : Option Fence) → (afterBlank : Bool) → List (List Char) →
    List (Option Char)
  | _, _, [] => []
  | opened, afterBlank, line :: rest =>
      let content := Text.dropLineEnds line
      let more := line.map some ++ markedLines (after opened content) (Text.allBlank content) rest
      if needsGap opened afterBlank content then none :: more else more

theorem map_getD_markedLines (opened : Option Fence) (afterBlank : Bool)
    (lines : List (List Char)) : (markedLines opened afterBlank lines).map (·.getD '\n') =
      (separateLines opened afterBlank lines).flatten := by
  have plain (line : List Char) : (line.map some).map (·.getD '\n') = line := by
    rw [List.map_map]
    exact List.map_id line
  induction lines generalizing opened afterBlank with
  | nil => rfl
  | cons line rest ih =>
      rw [markedLines, separateLines]
      split
      · rw [List.map_cons, List.map_append, plain, ih, List.flatten_cons, List.flatten_cons]
        rfl
      · rw [List.map_append, plain, ih, List.flatten_cons]

theorem reduceOption_map_some (line : List Char) : (line.map some).reduceOption = line := by
  rw [List.reduceOption, List.filterMap_map]
  exact List.filterMap_some

theorem reduceOption_markedLines (opened : Option Fence) (afterBlank : Bool)
    (lines : List (List Char)) :
    (markedLines opened afterBlank lines).reduceOption = lines.flatten := by
  induction lines generalizing opened afterBlank with
  | nil => rfl
  | cons line rest ih =>
      rw [markedLines]
      split
      · rw [List.reduceOption_cons_of_none, List.reduceOption_append, reduceOption_map_some, ih,
          List.flatten_cons]
      · rw [List.reduceOption_append, reduceOption_map_some, ih, List.flatten_cons]

/-- A line feed is put in only where a line has ended. -/
theorem endsLine_of_markedLines {opened : Option Fence} {afterBlank : Bool}
    {lines : List (List Char)} (own : Text.linesWithEnds lines.flatten = lines)
    {front back : List (Option Char)}
    (split : markedLines opened afterBlank lines = front ++ none :: back) :
    Text.EndsLine front.reduceOption := by
  induction lines generalizing opened afterBlank front with
  | nil =>
      rw [markedLines, eq_comm, List.append_eq_nil_iff] at split
      cases split.2
  | cons line rest ih =>
      obtain ⟨-, later, ended⟩ := Text.linesWithEnds_of_eq_cons own
      have behind {front : List (Option Char)} {opened : Option Fence} {afterBlank : Bool}
          (split : line.map some ++ markedLines opened afterBlank rest = front ++ none :: back) :
          Text.EndsLine front.reduceOption := by
        have past : ∃ w, front = line.map some ++ w ∧
            markedLines opened afterBlank rest = w ++ none :: back := by
          rcases List.append_eq_append_iff.1 split with past | ⟨w, inside, more⟩
          · exact past
          · cases w with
            | nil => exact ⟨[], by rw [inside, List.append_nil, List.append_nil], more.symm⟩
            | cons first w =>
                rw [List.cons_append, List.cons.injEq] at more
                have mem : none ∈ line.map some := by simp [inside, ← more.1]
                simp at mem
        obtain ⟨w, rfl, more⟩ := past
        have nonempty : rest ≠ [] := by
          rintro rfl
          simp [markedLines] at more
        rw [List.reduceOption_append, reduceOption_map_some]
        exact (ended nonempty).append (ih later more)
      rw [markedLines] at split
      split at split
      · cases front with
        | nil => exact Text.endsLine_nil
        | cons first front =>
            rw [List.cons_append, List.cons.injEq] at split
            rw [← split.1, List.reduceOption_cons_of_none]
            exact behind split.2
      · exact behind split

/-- The characters of a separated text; the line feeds that are put in are `none`. -/
def marked (s : List Char) : List (Option Char) :=
  markedLines none true (Text.linesWithEnds s)

/-- What the first lines of a separated text are in the text, as the parser counts lines. -/
def beginning (n : Nat) (s : List Char) : List Char :=
  ((marked s).take (Markdown.takeLines n (separate s)).length).reduceOption

theorem map_getD_marked (s : List Char) : (marked s).map (·.getD '\n') = separate s :=
  map_getD_markedLines _ _ _

theorem reduceOption_marked (s : List Char) : (marked s).reduceOption = s :=
  (reduceOption_markedLines _ _ _).trans (Text.flatten_linesWithEnds s)

theorem beginning_mono {n m : Nat} (le : n ≤ m) (s : List Char) :
    beginning n s <+: beginning m s :=
  (List.take_prefix_take_left (Markdown.takeLines_mono le (separate s)).length_le).reduceOption

theorem prefix_beginning (n : Nat) (s : List Char) : beginning n s <+: s := by
  nth_rewrite 2 [← reduceOption_marked s]
  exact (List.take_prefix _ _).reduceOption

/-- The beginning of a text is the whole text, or its last line has its end. -/
theorem beginning_ended (n : Nat) (s : List Char) :
    beginning n s = s ∨ Markdown.Ended (beginning n s) := by
  have read : ((marked s).take (Markdown.takeLines n (separate s)).length).map (·.getD '\n') =
      Markdown.takeLines n (separate s) := by
    rw [List.map_take, map_getD_marked]
    exact (List.prefix_iff_eq_take.1 (Markdown.prefix_takeLines n (separate s))).symm
  rcases Markdown.takeLines_ended n (separate s) with whole | ends
  · left
    rw [beginning, whole, ← map_getD_marked, List.length_map, List.take_length,
      reduceOption_marked]
  · right
    rw [← read, Markdown.Ended] at ends
    obtain ⟨back, split⟩ := List.take_prefix (Markdown.takeLines n (separate s)).length (marked s)
    rw [beginning, Markdown.Ended]
    generalize (marked s).take (Markdown.takeLines n (separate s)).length = front at split ends
    rcases List.eq_nil_or_concat' front with rfl | ⟨front, last, rfl⟩
    · rintro c ⟨⟩
    · rw [List.reduceOption_append, List.reduceOption_singleton]
      cases last with
      | none =>
          -- what is put in stands behind a line feed
          have own := congrArg Text.linesWithEnds (Text.flatten_linesWithEnds s)
          rw [List.append_assoc] at split
          rw [Option.toList_none, List.append_nil]
          exact fun c last => .inr (endsLine_of_markedLines own split.symm c last)
      | some c =>
          rw [List.map_append, List.map_singleton, List.getLast?_concat] at ends
          rw [Option.toList_some, List.getLast?_concat]
          exact ends

theorem beginning_apart (n : Nat) (s : List Char) :
    beginning n s = s ∨ ∀ c ∈ (beginning n s).getLast?, c.isAlphanum = false := by
  refine (beginning_ended n s).imp_right fun ended c last => ?_
  rcases ended c last with rfl | rfl <;> rfl

end Fence

/-! ## Masked texts -/

namespace Mask

/-- What is restored of a text that ends outside of a token is a beginning of what is restored of
a longer one. -/
theorem Fresh.prefix_restore {mask : Mask} (fresh : mask.Fresh) {a b : List Char} (within : a <+: b)
    (ends : a = b ∨ ∀ c ∈ a.getLast?, c.isAlphanum = false) :
    mask.restore a <+: mask.restore b := by
  rcases ends with rfl | apart
  · exact List.prefix_rfl
  · rcases List.eq_nil_or_concat' a with rfl | ⟨a, c, rfl⟩
    · rw [restore_eq_restoreTokens, restoreTokens_nil]
      exact List.nil_prefix
    · obtain ⟨more, rfl⟩ := within
      have gap : c.isAlphanum = false := apart c List.getLast?_concat
      rw [List.append_assoc, fresh.restore_append_cons gap, List.singleton_append,
        fresh.restore_append_cons gap, restore_eq_restoreTokens mask [], restoreTokens_nil,
        List.prefix_append_right_inj, List.cons_prefix_cons]
      exact ⟨rfl, List.nil_prefix⟩

end Mask

namespace Body

/-- The beginning of a body that the parser has read when it is through with some lines. -/
def upTo (n : Nat) (text : List Char) : List Char :=
  (Mask.ofText text).2.restore (Fence.beginning n (Mask.ofText text).1)

theorem upTo_mono {n m : Nat} (le : n ≤ m) (text : List Char) : upTo n text <+: upTo m text := by
  have longer := Fence.beginning_mono le (Mask.ofText text).1
  refine (Mask.fresh_ofText text).prefix_restore longer ?_
  refine (Fence.beginning_apart n _).imp_left fun whole => ?_
  rw [whole] at longer ⊢
  exact longer.eq_of_length_le (Fence.prefix_beginning m _).length_le

theorem prefix_upTo (n : Nat) (text : List Char) : upTo n text <+: text := by
  nth_rewrite 2 [← Mask.restore_ofText text]
  exact (Mask.fresh_ofText text).prefix_restore (Fence.prefix_beginning n _)
    (Fence.beginning_apart n _)

end Body

/-! ## Sources -/

namespace Frontmatter

/-- The body is an end of the source. -/
theorem suffix_split (source : List Char) : (split source).2 <:+ source := by
  cases found : (split source).1 with
  | none =>
      obtain ⟨same, -⟩ : (split source).2 = source ∧ Bare source :=
        split_eq_none_iff.1 (Prod.ext found rfl)
      exact ⟨[], same⟩
  | some yaml =>
      have framed : Framed source yaml (split source).2 := split_eq_some_iff.1 (Prod.ext found rfl)
      obtain ⟨opening, -, closing, -, whole, -⟩ := framed.whole
      exact ⟨opening ++ yaml ++ closing, whole.symm⟩

end Frontmatter

namespace Document

/-- The beginning of a source that has been read when the parser is through with some lines of
its body. -/
def upTo (n : Nat) (source : List Char) : List Char :=
  let body := (Frontmatter.split source).2
  source.take (source.length - body.length) ++ Body.upTo n body

/-- Before its first line is read, a source has been read up to its body. -/
theorem upTo_zero_append (source : List Char) :
    upTo 0 source ++ (Frontmatter.split source).2 = source := by
  have nothing (text : List Char) : Body.upTo 0 text = [] := by
    rw [Body.upTo, Fence.beginning, Markdown.takeLines, Mask.restore_eq_restoreTokens]
    exact Mask.restoreTokens_nil _
  rw [upTo, nothing, List.append_nil]
  exact List.suffix_iff_eq_append.1 (Frontmatter.suffix_split source)

theorem upTo_mono {n m : Nat} (le : n ≤ m) (source : List Char) : upTo n source <+: upTo m source :=
  (List.prefix_append_right_inj _).2 (Body.upTo_mono le _)

theorem prefix_upTo (n : Nat) (source : List Char) : upTo n source <+: source := by
  have split := List.suffix_iff_eq_append.1 (Frontmatter.suffix_split source)
  have within : upTo n source <+:
      source.take (source.length - (Frontmatter.split source).2.length) ++
        (Frontmatter.split source).2 :=
    (List.prefix_append_right_inj _).2 (Body.prefix_upTo n _)
  rwa [split] at within

end Document

end UiMarkdown
