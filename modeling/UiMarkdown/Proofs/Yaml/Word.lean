import Mathlib.Data.List.Infix
import UiMarkdown.Proofs.Text.Occurrence
import UiMarkdown.Yaml.Token.Scalar

/-!
# Words that scalars are read with

Apart from escapes, reading a scalar invents no word: what stands between two
characters of the text and is left out of the scalar leaves a space or a line
break there.  So every run of letters and digits in the scalar is one of the
text.
-/

namespace UiMarkdown

namespace Text

def IsWord (word : List Char) : Prop :=
  ∀ c ∈ word, c.isAlphanum = true

/-- The words that stand in a text stand in another one. -/
def WordsIn (s text : List Char) : Prop :=
  ∀ word, IsWord word → word <:+: text → word <:+: s

def Wordless (text : List Char) : Prop :=
  ∀ c ∈ text, c.isAlphanum = false

theorem wordless_nil : Wordless [] :=
  List.forall_mem_nil _

theorem Wordless.append {a b : List Char} (first : Wordless a) (second : Wordless b) :
    Wordless (a ++ b) := by
  intro c mem
  rcases List.mem_append.1 mem with here | there
  · exact first c here
  · exact second c there

theorem wordless_singleton {c : Char} (separates : c.isAlphanum = false) : Wordless [c] :=
  List.forall_mem_singleton.2 separates

theorem WordsIn.of_isInfix {s text : List Char} (inside : text <:+: s) : WordsIn s text :=
  fun _ _ occurs => occurs.trans inside

/-- Text without words adds no word. -/
theorem WordsIn.append_wordless {s text between : List Char} (words : WordsIn s text)
    (wordless : Wordless between) : WordsIn s (text ++ between) := by
  intro word isWord occurs
  by_cases starts : StartsIn word text between
  · obtain ⟨u, v, rfl, nonempty, inside⟩ := starts
    rcases List.prefix_or_prefix_of_prefix inside (List.prefix_append v between) with within | across
    · exact words word isWord (within.isInfix.trans (List.suffix_append u v).isInfix)
    · obtain ⟨w, rfl⟩ := across
      rw [List.prefix_append_right_inj] at inside
      have empty : w = [] := by
        cases w with
        | nil => rfl
        | cons c w =>
            have letter := isWord c (List.mem_append_right _ List.mem_cons_self)
            rw [wordless c (inside.subset List.mem_cons_self)] at letter
            cases letter
      rw [empty, List.append_nil] at isWord ⊢
      exact words v isWord (List.suffix_append u v).isInfix
  · obtain ⟨u, w, split⟩ := occurs
    rw [List.append_assoc] at split
    obtain ⟨w', -, rest⟩ := exists_of_not_startsIn starts split.symm (List.prefix_append word w)
    cases word with
    | nil => exact List.nil_infix
    | cons c word =>
        have letter := isWord c List.mem_cons_self
        rw [wordless c (by rw [rest]; simp)] at letter
        cases letter

/--
A text that is read from a source up to a place: its words stand in the source,
and the word that it ends with stands right before the place.
-/
structure ReadUpTo (s text rest : List Char) : Prop where
  words : WordsIn s text
  last : ∀ word, IsWord word → word <:+ text → word ++ rest <:+ s

namespace ReadUpTo

variable {s text rest : List Char}

theorem suffix (read : ReadUpTo s text rest) : rest <:+ s :=
  read.last [] (List.forall_mem_nil _) List.nil_suffix

/-- Nothing has been read. -/
theorem start (left : rest <:+ s) : ReadUpTo s [] rest where
  words := fun _ _ occurs => by rw [List.infix_nil.1 occurs]; exact List.nil_infix
  last := fun _ _ ends => by rwa [List.suffix_nil.1 ends]

/-- A word in a text with one more character stood in the text or ends with the character. -/
theorem wordsIn_concat {c : Char} (words : WordsIn s text)
    (last : ∀ word, IsWord word → word <:+ text ++ [c] → word <:+: s) : WordsIn s (text ++ [c]) := by
  intro word isWord occurs
  rcases List.infix_concat_iff.1 occurs with ends | inside
  · exact last word isWord ends
  · exact words word isWord inside

/-- Read the next character. -/
theorem char {c : Char} (read : ReadUpTo s text (c :: rest)) : ReadUpTo s (text ++ [c]) rest := by
  have last : ∀ word, IsWord word → word <:+ text ++ [c] → word ++ rest <:+ s := by
    intro word isWord ends
    rcases List.suffix_concat_iff.1 ends with rfl | ⟨before, rfl, inside⟩
    · exact (List.suffix_cons c rest).trans read.suffix
    · rw [List.append_assoc]
      exact read.last before (fun d mem => isWord d (List.mem_append_left _ mem)) inside
  refine ⟨wordsIn_concat read.words fun word isWord ends => ?_, last⟩
  exact (List.prefix_append word rest).isInfix.trans (last word isWord ends).isInfix

/-- Read the next characters. -/
theorem chars (line : List Char) (read : ReadUpTo s text (line ++ rest)) :
    ReadUpTo s (text ++ line) rest := by
  induction line generalizing text with
  | nil => simpa using read
  | cons c line ih =>
      rw [← List.singleton_append, ← List.append_assoc]
      exact ih read.char

/-- Put a character that belongs to no word, and go on to any later place. -/
theorem separator {c : Char} {later : List Char} (read : ReadUpTo s text rest)
    (separates : c.isAlphanum = false) (left : later <:+ s) : ReadUpTo s (text ++ [c]) later := by
  have empty : ∀ word, IsWord word → word <:+ text ++ [c] → word = [] := by
    intro word isWord ends
    rcases List.suffix_concat_iff.1 ends with rfl | ⟨before, rfl, -⟩
    · rfl
    · have letter := isWord c (List.mem_append_right _ List.mem_cons_self)
      rw [separates] at letter
      cases letter
  refine ⟨wordsIn_concat read.words fun word isWord ends => ?_, fun word isWord ends => ?_⟩
  · rw [empty word isWord ends]
    exact List.nil_infix
  · rwa [empty word isWord ends]

/-- Put a text without words, and go on to a later place if it is not empty. -/
theorem gap {between later : List Char} (read : ReadUpTo s text rest) (wordless : Wordless between)
    (left : later <:+ s) (moved : between = [] → later = rest) :
    ReadUpTo s (text ++ between) later := by
  induction between generalizing text rest with
  | nil =>
      rw [List.append_nil, moved rfl]
      exact read
  | cons c between ih =>
      rw [Wordless, List.forall_mem_cons] at wordless
      rw [← List.singleton_append, ← List.append_assoc]
      exact ih (read.separator wordless.1 left) wordless.2 fun _ => rfl

end ReadUpTo

end Text

namespace Yaml

open Text

theorem isAlphanum_of_isSpaceOrTab {c : Char} (blank : Text.isSpaceOrTab c = true) :
    c.isAlphanum = false := by
  rw [Text.isSpaceOrTab, Bool.or_eq_true, beq_iff_eq, beq_iff_eq] at blank
  rcases blank with rfl | rfl <;> decide

namespace Cursor

/-! ## Places -/

theorem suffix_skip (cursor : Cursor) (count : Nat) : (cursor.skip count).rest <:+ cursor.rest :=
  List.drop_suffix count cursor.rest

theorem suffix_skipWhile (cursor : Cursor) (p : Char → Bool) :
    (cursor.skipWhile p).rest <:+ cursor.rest :=
  suffix_skip cursor _

theorem rest_skipWhile (cursor : Cursor) (p : Char → Bool) :
    (cursor.skipWhile p).rest = cursor.rest.dropWhile p := by
  have start := List.prefix_iff_eq_take.1 (List.takeWhile_prefix (l := cursor.rest) p)
  rw [← List.append_right_inj (cursor.rest.takeWhile p), List.takeWhile_append_dropWhile,
    skipWhile, skip]
  nth_rewrite 1 [start]
  exact List.take_append_drop _ _

theorem suffix_readBreak (cursor : Cursor) : cursor.readBreak.2.rest <:+ cursor.rest := by
  rw [readBreak]
  split
  · exact List.drop_suffix _ _
  · split
    · exact List.drop_suffix _ _
    · split
      · exact List.drop_suffix _ _
      · exact List.suffix_rfl
  · exact List.suffix_rfl

theorem suffix_skipBreak (cursor : Cursor) : cursor.skipBreak.rest <:+ cursor.rest :=
  suffix_readBreak cursor

/-- A comment is passed over or not. -/
theorem suffix_skipComment (cursor : Cursor) :
    (if cursor.isAt '#' then cursor.skipWhile (!isBreak ·) else cursor).rest <:+ cursor.rest := by
  split
  · exact suffix_skipWhile cursor _
  · exact List.suffix_rfl

/-- A line break stands for a text without words. -/
theorem wordless_readBreak (cursor : Cursor) : Wordless cursor.readBreak.1 := by
  rw [readBreak]
  split
  · exact wordless_singleton (by decide)
  · split
    · rename_i separator
      rw [Bool.or_eq_true, beq_iff_eq, beq_iff_eq] at separator
      apply wordless_singleton
      rcases separator with rfl | rfl <;> decide
    · split
      · exact wordless_singleton (by decide)
      · exact wordless_nil
  · exact wordless_nil

/-- A line break stands for some text. -/
theorem readBreak_ne_nil {cursor : Cursor} (ends : cursor.holds isBreak = true) :
    cursor.readBreak.1 ≠ [] := by
  rw [readBreak]
  split
  · exact List.cons_ne_nil _ _
  · rename_i c rest _ found
    split
    · exact List.cons_ne_nil _ _
    · split
      · exact List.cons_ne_nil _ _
      · rename_i stays
        simp [holds, peek?, found, stays] at ends
  · rename_i found
    simp [holds, peek?, found] at ends

/-- What comes next is the first character that is left. -/
theorem rest_eq_cons_of_holds {cursor : Cursor} {p : Char → Bool}
    (found : cursor.holds p = true) : ∃ c rest, cursor.rest = c :: rest ∧ p c = true := by
  rw [holds, peek?] at found
  cases left : cursor.rest with
  | nil => simp [left] at found
  | cons c rest => exact ⟨c, rest, rfl, by simpa [left] using found⟩

theorem rest_skip_of_cons {cursor : Cursor} {c : Char} {rest : List Char}
    (left : cursor.rest = c :: rest) : cursor.skip.rest = rest := by
  rw [skip, left]
  rfl

end Cursor

/-! ## Gaps -/

namespace Gap

/-- A gap has no words, and a line break in it stands for some text. -/
structure Sound (gap : Gap) : Prop where
  blanks : Wordless gap.blanks
  first : Wordless gap.first
  more : Wordless gap.more
  breaks : gap.broken = true → gap.first ≠ []

theorem sound_empty : Sound {} :=
  ⟨wordless_nil, wordless_nil, wordless_nil, fun broken => by cases broken⟩

theorem Sound.wordless {gap : Gap} (sound : gap.Sound) : Wordless gap.text := by
  rw [text]
  split
  · split
    · split
      · exact wordless_singleton (by decide)
      · exact sound.more
    · exact sound.first.append sound.more
  · exact sound.blanks

theorem Sound.text_ne_nil {gap : Gap} (sound : gap.Sound) (broken : gap.broken = true) :
    gap.text ≠ [] := by
  rw [text, if_pos broken]
  split
  · split
    · exact List.cons_ne_nil _ _
    · rename_i more
      rwa [List.isEmpty_iff] at more
  · exact fun empty => sound.breaks broken (List.append_eq_nil_iff.1 empty).1

/-- Reading a gap goes on to a later place, and stays only if the gap stays empty. -/
theorem Sound.read? {gap gap' : Gap} {indent fuel : Nat} {cursor cursor' : Cursor}
    (sound : gap.Sound) (read : gap.read? indent fuel cursor = some (gap', cursor')) :
    gap'.Sound ∧ cursor'.rest <:+ cursor.rest ∧
      (gap'.text = [] → gap.text = [] ∧ cursor'.rest = cursor.rest) := by
  induction fuel generalizing gap cursor with
  | zero =>
      cases read
      exact ⟨sound, List.suffix_rfl, fun empty => ⟨empty, rfl⟩⟩
  | succ fuel ih =>
      rw [Gap.read?] at read
      split at read
      · rename_i isBlank
        split at read
        · cases read
        · obtain ⟨c, rest, left, blank⟩ := Cursor.rest_eq_cons_of_holds isBlank
          have wordless : Wordless (cursor.rest.take 1) := by
            rw [left]
            exact wordless_singleton (isAlphanum_of_isSpaceOrTab blank)
          have grown : ({ gap with blanks := gap.blanks ++
              if gap.broken then [] else cursor.rest.take 1 } : Gap).Sound := by
            refine ⟨sound.blanks.append ?_, sound.first, sound.more, sound.breaks⟩
            split
            · exact wordless_nil
            · exact wordless
          obtain ⟨sound', suffix, stays⟩ := ih grown read
          refine ⟨sound', suffix.trans (Cursor.suffix_skip cursor 1), fun empty => ?_⟩
          exfalso
          have nothing := (stays empty).1
          cases broken : gap.broken with
          | true => exact grown.text_ne_nil broken nothing
          | false => simp [text, broken, left] at nothing
      · split at read
        · rename_i isBreak
          have grown : (if gap.broken then { gap with more := gap.more ++ cursor.readBreak.1 }
              else { gap with blanks := [], first := cursor.readBreak.1, broken := true }
                : Gap).Sound := by
            split
            · exact ⟨sound.blanks, sound.first,
                sound.more.append cursor.wordless_readBreak, sound.breaks⟩
            · exact ⟨wordless_nil, cursor.wordless_readBreak, sound.more,
                fun _ => Cursor.readBreak_ne_nil isBreak⟩
          have broken : (if gap.broken then { gap with more := gap.more ++ cursor.readBreak.1 }
              else { gap with blanks := [], first := cursor.readBreak.1, broken := true }
                : Gap).broken = true := by
            split
            · assumption
            · rfl
          obtain ⟨sound', suffix, stays⟩ := ih grown read
          refine ⟨sound', suffix.trans cursor.suffix_readBreak, fun empty => ?_⟩
          exact absurd (stays empty).1 (grown.text_ne_nil broken)
        · cases read
          exact ⟨sound, List.suffix_rfl, fun empty => ⟨empty, rfl⟩⟩

end Gap

end Yaml

end UiMarkdown
