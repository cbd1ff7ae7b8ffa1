import UiMarkdown.Proofs.Yaml.Word

/-!
# Words of scalars

A scalar of any style is read from the text up to some place, word by word.
Only an escape in double quotes may write a character that does not stand in
the text.
-/

namespace UiMarkdown

namespace Yaml

open Text

/-- A text that is read up to some place, and the gap from there to a later place. -/
structure Paused (s text : List Char) (gap : Gap) (rest : List Char) : Prop where
  sound : gap.Sound
  left : rest <:+ s
  read : ∃ start, ReadUpTo s text start ∧ (gap.text = [] → rest = start)

namespace Paused

variable {s text rest : List Char} {gap : Gap}

theorem of_read (read : ReadUpTo s text rest) : Paused s text {} rest :=
  ⟨Gap.sound_empty, read.suffix, rest, read, fun _ => rfl⟩

theorem words (paused : Paused s text gap rest) : WordsIn s text := by
  obtain ⟨start, read, -⟩ := paused.read
  exact read.words

/-- Go on after a gap. -/
theorem resume (paused : Paused s text gap rest) : ReadUpTo s (text ++ gap.text) rest := by
  obtain ⟨start, read, moved⟩ := paused.read
  exact read.gap paused.sound.wordless paused.left moved

/-- Read more of a gap. -/
theorem read? {gap' : Gap} {indent fuel : Nat} {cursor cursor' : Cursor}
    (paused : Paused s text gap cursor.rest)
    (found : gap.read? indent fuel cursor = some (gap', cursor')) :
    Paused s text gap' cursor'.rest := by
  obtain ⟨start, read, moved⟩ := paused.read
  obtain ⟨sound, suffix, stays⟩ := paused.sound.read? found
  refine ⟨sound, suffix.trans paused.left, start, read, fun empty => ?_⟩
  rw [(stays empty).2, moved (stays empty).1]

end Paused

namespace Cursor

variable {s : List Char}

/-! ## Plain scalars -/

/-- The characters of a plain word are the next characters of the text. -/
theorem readUpTo_of_plainWord? {base word word' : List Char} {flow : Bool} {fuel : Nat}
    {cursor cursor' : Cursor} (read : ReadUpTo s (base ++ word.reverse) cursor.rest)
    (found : plainWord? flow fuel word cursor = some (word', cursor')) :
    ReadUpTo s (base ++ word'.reverse) cursor'.rest := by
  induction fuel generalizing word cursor with
  | zero =>
      cases found
      exact read
  | succ fuel ih =>
      rw [plainWord?] at found
      split at found
      · cases found
        exact read
      · rename_i c rest left
        split at found
        · cases found
          exact read
        · split at found
          · cases found
          · split at found
            · cases found
              exact read
            · refine ih ?_ found
              rw [left] at read
              rw [rest_skip_of_cons left, List.reverse_cons, ← List.append_assoc]
              exact read.char

theorem words_of_plain? {flow broken : Bool} {indent fuel : Nat} {text text' : List Char}
    {gap : Gap} {cursor cursor' : Cursor} (paused : Paused s text gap cursor.rest)
    (found : plain? flow indent fuel text gap cursor = some (text', broken, cursor')) :
    WordsIn s text' ∧ cursor'.rest <:+ s := by
  induction fuel generalizing text gap cursor with
  | zero =>
      cases found
      exact ⟨paused.words, paused.left⟩
  | succ fuel ih =>
      rw [plain?] at found
      split at found
      · cases found
        exact ⟨paused.words, paused.left⟩
      · split at found
        · cases found
        · rename_i word next isWord
          have read : ReadUpTo s (text ++ gap.text ++ word.reverse) next.rest := by
            apply readUpTo_of_plainWord? _ isWord
            simpa using paused.resume
          have paused' : Paused s
              (if word.isEmpty then (text, gap) else (text ++ gap.text ++ word.reverse, {})).1
              (if word.isEmpty then (text, gap) else (text ++ gap.text ++ word.reverse, {})).2
              next.rest := by
            cases word with
            | nil =>
                -- an empty word leaves text and gap, and the place too if the gap is empty
                simp only [List.reverse_nil, List.append_nil] at read
                obtain ⟨start, before, -⟩ := paused.read
                by_cases empty : gap.text = []
                · rw [empty, List.append_nil] at read
                  exact ⟨paused.sound, read.suffix, next.rest, read, fun _ => rfl⟩
                · exact ⟨paused.sound, read.suffix, start, before, fun no => absurd no empty⟩
            | cons c word => exact .of_read read
          dsimp only at found
          split at found
          · split at found
            · cases found
            · rename_i gap' later isGap
              have paused'' := paused'.read? isGap
              split at found
              · cases found
                exact ⟨paused''.words, paused''.left⟩
              · exact ih paused'' found
          · cases found
            exact ⟨paused'.words, paused'.left⟩

/-! ## Quoted scalars -/

/-- Without a backslash, the characters of a quoted word are characters of the text or quotes. -/
theorem readUpTo_of_quotedWord? {base word word' : List Char} {single joined : Bool} {fuel : Nat}
    {cursor cursor' : Cursor} (plain : '\\' ∉ s)
    (read : ReadUpTo s (base ++ word.reverse) cursor.rest)
    (found : quotedWord? single fuel word cursor = some (word', joined, cursor')) :
    joined = false ∧ ReadUpTo s (base ++ word'.reverse) cursor'.rest := by
  induction fuel generalizing word cursor with
  | zero =>
      cases found
      exact ⟨rfl, read⟩
  | succ fuel ih =>
      rw [quotedWord?] at found
      split at found
      · cases found
        exact ⟨rfl, read⟩
      · split at found
        · cases found
          exact ⟨rfl, read⟩
        · rename_i c rest left
          have next : ReadUpTo s (base ++ (c :: word).reverse) cursor.skip.rest := by
            rw [left] at read
            rw [rest_skip_of_cons left, List.reverse_cons, ← List.append_assoc]
            exact read.char
          split at found
          · split at found
            · split at found
              · refine ih ?_ found
                rw [List.reverse_cons, ← List.append_assoc]
                exact read.separator (by decide) ((suffix_skip cursor 2).trans read.suffix)
              · cases found
                exact ⟨rfl, read⟩
            · exact ih next found
          · split at found
            · cases found
              exact ⟨rfl, read⟩
            · split at found
              · rename_i escape
                rw [beq_iff_eq] at escape
                subst escape
                exact absurd (read.suffix.subset (by rw [left]; exact List.mem_cons_self)) plain
              · exact ih next found

theorem words_of_quoted? {single : Bool} {fuel : Nat} {text text' : List Char}
    {cursor cursor' : Cursor} (plain : '\\' ∉ s) (read : ReadUpTo s text cursor.rest)
    (found : quoted? single fuel text cursor = some (text', cursor')) :
    WordsIn s text' ∧ cursor'.rest <:+ s := by
  induction fuel generalizing text cursor with
  | zero => cases found
  | succ fuel ih =>
      rw [quoted?] at found
      split at found
      · cases found
      · split at found
        · cases found
        · rename_i word joined next isWord
          obtain ⟨rfl, read'⟩ := readUpTo_of_quotedWord? plain (by simpa using read) isWord
          dsimp only at found
          generalize (if single then '\'' else '"') = quote at found
          split at found
          · cases found
            exact ⟨read'.words, (suffix_skip next 1).trans read'.suffix⟩
          · split at found
            · cases found
            · rename_i gap later isGap
              exact ih ((Paused.of_read read').read? isGap).resume found

/-! ## Block scalars -/

/-- The breaks before a line have no words. -/
theorem wordless_of_blockBreaks? {indent fuel deepest deepest' : Nat} {breaks breaks' : List Char}
    {cursor cursor' : Cursor} (wordless : Wordless breaks)
    (found : blockBreaks? indent fuel deepest breaks cursor = some (deepest', breaks', cursor')) :
    Wordless breaks' ∧ cursor'.rest <:+ cursor.rest := by
  induction fuel generalizing deepest breaks cursor with
  | zero => cases found
  | succ fuel ih =>
      rw [blockBreaks?] at found
      dsimp only at found
      generalize (if (indent == 0) = true then (cursor.rest.takeWhile (· == ' ')).length
        else min (cursor.rest.takeWhile (· == ' ')).length (indent - cursor.column)) = used at found
      split at found
      · cases found
      · split at found
        · obtain ⟨wordless', suffix⟩ := ih (wordless.append (wordless_readBreak _)) found
          exact ⟨wordless', suffix.trans ((suffix_readBreak _).trans (suffix_skip _ _))⟩
        · cases found
          exact ⟨wordless, suffix_skip _ _⟩

/-- What stands between two lines has no words. -/
structure BlockGap.Sound (gap : BlockGap) : Prop where
  first : Wordless gap.first
  more : Wordless gap.more

/-- What a block scalar has before a line has no words, and is empty only without a first break. -/
theorem BlockGap.Sound.before {gap : BlockGap} (sound : BlockGap.Sound gap) (folds : Bool) :
    Wordless (if folds then if gap.more.isEmpty then [' '] else gap.more
      else gap.first ++ gap.more) ∧
    (gap.first ≠ [] → (if folds then if gap.more.isEmpty then [' '] else gap.more
      else gap.first ++ gap.more) ≠ []) := by
  split
  · split
    · exact ⟨wordless_singleton (by decide), fun _ => List.cons_ne_nil _ _⟩
    · rename_i more
      rw [List.isEmpty_iff] at more
      exact ⟨sound.more, fun _ => more⟩
  · exact ⟨sound.first.append sound.more,
      fun first empty => first (List.append_eq_nil_iff.1 empty).1⟩

/-- A line up to its break is read, and the break is some text unless the text ends. -/
theorem readUpTo_takeLine {text : List Char} {cursor : Cursor}
    (read : ReadUpTo s text cursor.rest) :
    ReadUpTo s (text ++ cursor.rest.takeWhile (!isBreak ·))
        (cursor.skipWhile (!isBreak ·)).rest ∧
      ((cursor.skipWhile (!isBreak ·)).readBreak.1 = [] →
        (cursor.skipWhile (!isBreak ·)).readBreak.2.rest = []) := by
  constructor
  · rw [rest_skipWhile]
    apply ReadUpTo.chars
    rwa [List.takeWhile_append_dropWhile]
  · intro nothing
    cases left : (cursor.skipWhile (!isBreak ·)).rest with
    | nil =>
        have suffix := suffix_readBreak (cursor.skipWhile (!isBreak ·))
        rwa [left, List.suffix_nil] at suffix
    | cons c rest =>
        have stops : isBreak c = true := by
          rw [rest_skipWhile] at left
          have head := List.head?_dropWhile_not (!isBreak ·) cursor.rest
          rw [left] at head
          simpa using head
        exact absurd nothing (readBreak_ne_nil (by simp [holds, peek?, left, stops]))

theorem words_of_blockLines? {literal : Bool} {indent fuel : Nat} {text text' : List Char}
    {gap gap' : BlockGap} {cursor cursor' : Cursor} (sound : BlockGap.Sound gap)
    (left : cursor.rest <:+ s)
    (read : ∃ start, ReadUpTo s text start ∧ (gap.first = [] → text = [] ∨ cursor.rest = []))
    (found : blockLines? literal indent fuel text gap cursor = some (text', gap', cursor')) :
    WordsIn s text' ∧ BlockGap.Sound gap' ∧ cursor'.rest <:+ s := by
  induction fuel generalizing text gap cursor with
  | zero => cases found
  | succ fuel ih =>
      obtain ⟨start, before, moved⟩ := read
      rw [blockLines?] at found
      split at found
      · rename_i inside
        rw [Bool.and_eq_true, Bool.not_eq_true', atEnd] at inside
        dsimp only [takeWhile] at found
        split at found
        · cases found
        · rename_i deepest more next isBreaks
          obtain ⟨wordless, suffix⟩ := wordless_of_blockBreaks? wordless_nil isBreaks
          obtain ⟨separates, separator⟩ := sound.before
            (!literal && gap.first == ['\n'] && !gap.afterBlank && !cursor.holds Text.isSpaceOrTab)
          generalize (if (!literal && gap.first == ['\n'] && !gap.afterBlank &&
              !cursor.holds Text.isSpaceOrTab) = true then
            if gap.more.isEmpty then [' '] else gap.more
            else gap.first ++ gap.more) = parting at found separates separator
          have between : ReadUpTo s (text ++ parting) cursor.rest := by
            by_cases first : gap.first = []
            · rcases moved first with rfl | ended
              · exact (ReadUpTo.start left).gap separates left fun _ => rfl
              · rw [ended] at inside
                cases inside.2
            · exact before.gap separates left fun empty => absurd empty (separator first)
          obtain ⟨line, ends⟩ := readUpTo_takeLine between
          refine ih ⟨wordless_readBreak _, wordless⟩ ?_ ⟨_, line, ?_⟩ found
          · exact suffix.trans ((suffix_readBreak _).trans ((suffix_skipWhile _ _).trans left))
          · intro nothing
            have last := ends nothing
            rw [last] at suffix
            exact .inr (List.suffix_nil.1 suffix)
      · cases found
        exact ⟨before.words, sound, left⟩

theorem suffix_of_blockHead? {cursor cursor' : Cursor} {chomping : Chomping} {n : Nat}
    (found : cursor.blockHead? = some (chomping, n, cursor')) : cursor'.rest <:+ cursor.rest := by
  have finished {chomping' : Chomping} {indentation : Option Nat} {next : Cursor}
      (suffix : next.rest <:+ cursor.rest)
      (found : (if indentation == some 0 then none else
        some (chomping', indentation.getD 0, next)) = some (chomping, n, cursor')) :
      cursor'.rest <:+ cursor.rest := by
    split at found
    · cases found
    · cases found
      exact suffix
  rw [blockHead?] at found
  dsimp only at found
  split at found
  · split at found
    · split at found
      · exact finished (suffix_skip cursor 2) found
      · exact finished (suffix_skip cursor 1) found
    · split at found
      · split at found
        · exact finished (suffix_skip cursor 2) found
        · exact finished (suffix_skip cursor 1) found
      · exact finished List.suffix_rfl found
  · exact finished List.suffix_rfl found

theorem words_of_block? {literal : Bool} {parent : Int} {text : List Char}
    {cursor cursor' : Cursor} (left : cursor.rest <:+ s)
    (found : cursor.block? literal parent = some (text, cursor')) :
    WordsIn s text ∧ cursor'.rest <:+ s := by
  rw [block?] at found
  obtain ⟨⟨chomping, increment, head⟩, isHead, found⟩ := Option.bind_eq_some_iff.1 found
  dsimp only at found
  have started := ((suffix_skipComment _).trans (suffix_skipWhile head Text.isSpaceOrTab)).trans
    ((suffix_of_blockHead? isHead).trans left)
  generalize (if (head.skipWhile Text.isSpaceOrTab).isAt '#' then
      (head.skipWhile Text.isSpaceOrTab).skipWhile (!isBreak ·)
    else head.skipWhile Text.isSpaceOrTab) = commented at found started
  split at found
  · cases found
  · obtain ⟨⟨deepest, breaks, first⟩, isBreaks, found⟩ := Option.bind_eq_some_iff.1 found
    obtain ⟨⟨body, gap, last⟩, isBody, found⟩ := Option.bind_eq_some_iff.1 found
    obtain ⟨wordless, suffix⟩ := wordless_of_blockBreaks? wordless_nil isBreaks
    have begun := suffix.trans ((suffix_skipBreak _).trans started)
    obtain ⟨words, sound, ended⟩ := words_of_blockLines? ⟨wordless_nil, wordless⟩ begun
      ⟨_, .start begun, fun _ => .inl rfl⟩ isBody
    have chomped : WordsIn s (body ++ gap.first) :=
      words.append_wordless sound.first
    dsimp only at found
    cases chomping with
    | strip =>
        cases found
        exact ⟨words, ended⟩
    | clip =>
        cases found
        exact ⟨chomped, ended⟩
    | keep =>
        cases found
        exact ⟨chomped.append_wordless sound.more, ended⟩

end Cursor

end Yaml

end UiMarkdown
