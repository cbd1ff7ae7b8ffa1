import UiMarkdown.Proofs.Markdown.Sequence
import UiMarkdown.Proofs.Text.Words

/-!
# Plain Markdown

Text without characters of a meaning of their own is read as it stands: its lines
are a paragraph with soft breaks between them, and behind a mark it is a heading.
-/

namespace UiMarkdown

namespace Markdown

/-- Whether a character stands for itself wherever it is. -/
def isPlain (c : Char) : Bool :=
  !isSpecial true c && c != '\r' && c != '\x00'

/-- A text of one line in which no character has a meaning. -/
structure PlainText (s : List Char) : Prop where
  nonempty : s ≠ []
  plain : ∀ c ∈ s, isPlain c = true
  trimmed : Text.trim s = s

instance (s : List Char) : Decidable (PlainText s) :=
  decidable_of_iff (s ≠ [] ∧ s.all isPlain = true ∧ Text.trim s = s)
    ⟨fun ⟨nonempty, plain, trimmed⟩ => ⟨nonempty, List.all_eq_true.1 plain, trimmed⟩,
      fun text => ⟨text.nonempty, List.all_eq_true.2 text.plain, text.trimmed⟩⟩

theorem isBlank_of_isAsciiBlank {c : Char} (blank : Text.isAsciiBlank c = true) :
    Text.isBlank c = true := by
  simp only [Text.isAsciiBlank, Text.isBlank, Bool.or_eq_true, beq_iff_eq] at blank ⊢
  rcases blank with rfl | blank
  · decide
  · simp [blank]

theorem isSpaceOrTab_of_not_isBlank {c : Char} (solid : Text.isBlank c = false) :
    Text.isSpaceOrTab c = false := by
  rw [Text.isSpaceOrTab, Bool.or_eq_false_iff, beq_eq_false_iff_ne, beq_eq_false_iff_ne]
  refine ⟨?_, ?_⟩ <;> rintro rfl <;> cases solid

namespace PlainText

variable {s : List Char}

theorem exists_cons (plain : PlainText s) :
    ∃ c rest, s = c :: rest ∧ Text.isBlank c = false := by
  obtain ⟨c, rest, rfl⟩ := List.exists_cons_of_ne_nil plain.nonempty
  exact ⟨c, rest, rfl, Text.isBlank_of_trim_eq_cons plain.trimmed⟩

theorem not_isSpecial (plain : PlainText s) {c : Char} (mem : c ∈ s) :
    isSpecial true c = false := by
  have stands := plain.plain c mem
  rw [isPlain, Bool.and_eq_true, Bool.and_eq_true, Bool.not_eq_true'] at stands
  exact stands.1.1

theorem body (plain : PlainText s) (column : Nat) : Line.body { left := s, column } = s := by
  obtain ⟨c, rest, rfl, solid⟩ := plain.exists_cons
  refine List.dropWhile_cons_of_neg ?_
  rw [isSpaceOrTab_of_not_isBlank solid]
  exact Bool.false_ne_true

theorem isBlank (plain : PlainText s) (column : Nat) :
    Line.isBlank { left := s, column } = false := by
  rw [Line.isBlank, plain.body]
  obtain ⟨c, rest, rfl, -⟩ := plain.exists_cons
  rfl

theorem trimEnd (plain : PlainText s) : Text.trimEnd s = s := by
  rw [← plain.trimmed, Text.trimEnd_trim]

theorem dropEnd (plain : PlainText s) : Text.dropEnd Text.isAsciiBlank s = s :=
  Text.dropEnd_eq_self_of_imp plain.trimEnd fun _ => isBlank_of_isAsciiBlank

/-- A plain text ends with no space, so it makes no hard break. -/
theorem not_prefix_reverse (plain : PlainText s) (before : List Char) :
    [' ', ' '].isPrefixOf (s.reverse ++ before) = false := by
  obtain ⟨front, c, rfl⟩ := (List.eq_nil_or_concat s).resolve_left plain.nonempty
  have solid : Text.isBlank c = false := by
    by_contra blank
    rw [Bool.not_eq_false] at blank
    have kept := plain.trimEnd
    rw [List.concat_eq_append, Text.trimEnd, Text.dropEnd_append (by simp [blank])] at kept
    have shorter : (Text.dropEnd Text.isBlank front).length ≤ front.length := by
      obtain ⟨after, split, -⟩ := Text.exists_append_dropEnd Text.isBlank front
      conv_rhs => rw [split]
      rw [List.length_append]
      exact Nat.le_add_right _ _
    rw [kept, List.length_append, List.length_singleton] at shorter
    omega
  have other : (' ' == c) = false := by
    rw [beq_eq_false_iff_ne]
    rintro rfl
    cases solid
  rw [List.concat_eq_append, List.reverse_append, List.reverse_singleton, List.singleton_append,
    List.cons_append, List.isPrefixOf, other, Bool.false_and]

end PlainText

/-! ## Running text -/

/-- Parts that are finished do not pair up. -/
theorem pairUp_nodes (bottoms : List ((Char × Nat) × Nat)) (before : List Piece)
    (inlines : List Inline) :
    Piece.pairUp bottoms before (inlines.map .node) =
      before.reverse.map Piece.toInline ++ inlines := by
  induction inlines generalizing before with
  | nil => rw [List.map_nil, Piece.pairUp, List.append_nil]
  | cons inline inlines ih =>
      rw [List.map_cons, Piece.pairUp, ih, List.reverse_cons, List.map_append, List.append_assoc]
      rfl

namespace Reading

variable (reading : Reading) (setting : Setting)

theorem step_of_not_isSpecial {c : Char} (plain : isSpecial true c = false) (place : Nat)
    (rest : List Char) :
    reading.step setting place c rest = reading.readText setting.strokes (c :: rest) := by
  simp only [isSpecial, Bool.true_and, Bool.or_eq_false_iff, beq_eq_false_iff_ne] at plain
  unfold step
  split
  all_goals simp_all

/-- A plain text up to the end of its line is read at once. -/
theorem readAll_text {s : List Char} (plain : PlainText s) {rest : List Char}
    (ends : ∀ c ∈ rest.head?, c = '\n') (soft : .node .hardBreak ∉ reading.parts.head?)
    (place : Nat) :
    reading.readAll setting place (s ++ rest) =
      readAll { reading.pushText s with seen := s.reverse ++ reading.seen } setting
        (place + s.length) rest := by
  obtain ⟨c, more, rfl, -⟩ := plain.exists_cons
  have kept : ∀ d ∈ c :: more, (!isSpecial setting.strokes d) = true := by
    intro d mem
    have special := plain.not_isSpecial mem
    cases setting.strokes with
    | true => rw [special]; rfl
    | false =>
        rw [isSpecial, Bool.true_and, Bool.or_eq_false_iff] at special
        rw [isSpecial, Bool.false_and, Bool.or_false, special.1]
        rfl
  have taken : (c :: more ++ rest).takeWhile (fun d => !isSpecial setting.strokes d) =
      c :: more := by
    cases rest with
    | nil => rw [List.append_nil, List.takeWhile_eq_self_iff.2 kept]
    | cons d rest =>
        rw [ends d rfl, List.takeWhile_append_of_pos kept, List.takeWhile_cons_of_neg,
          List.append_nil]
        exact Bool.false_ne_true
  have read : reading.step setting place c (more ++ rest) =
      (reading.pushText (c :: more), rest) := by
    rw [step_of_not_isSpecial reading setting (plain.not_isSpecial List.mem_cons_self), readText,
      ← List.cons_append, taken, List.drop_left, plain.dropEnd, ite_self]
    split
    · rename_i isHead
      rw [isHead] at soft
      exact absurd rfl soft
    · rfl
  rw [List.cons_append, readAll, read]
  dsimp only
  rw [List.length_append, Nat.add_sub_cancel, List.take_left, List.drop_left, List.reverse_cons,
    List.append_assoc, List.length_cons]
  rfl

/-- Behind a plain text a line ends softly. -/
theorem readAll_feed {s : List Char} (soft : [' ', ' '].isPrefixOf reading.seen = false)
    (solid : ∀ c ∈ s.head?, Text.isSpaceOrTab c = false) (place : Nat) :
    reading.readAll setting place ('\n' :: s) =
      readAll { reading.push .softBreak with seen := '\n' :: reading.seen } setting
        (place + 1) s := by
  have skipped : skipSpaces s = s := by
    cases s with
    | nil => rfl
    | cons c s => exact List.dropWhile_cons_of_neg (by rw [solid c rfl]; exact Bool.false_ne_true)
  have read : reading.step setting place '\n' s = (reading.push .softBreak, s) := by
    rw [step, soft, skipped]
    rfl
  rw [readAll, read]
  dsimp only
  rw [Nat.sub_self, List.take_zero, List.drop_zero]
  rfl

/-- Plain lines are read as texts with soft breaks between them. -/
theorem readAll_lines {lines : List (List Char)} (nonempty : lines ≠ [])
    (plain : ∀ line ∈ lines, PlainText line) (soft : .node .hardBreak ∉ reading.parts.head?)
    (place : Nat) :
    let read := reading.readAll setting place (['\n'].intercalate lines)
    read.brackets = reading.brackets ∧ read.parts =
      (((lines.map .text).intersperse .softBreak).map .node).reverse ++ reading.parts := by
  induction lines generalizing reading place with
  | nil => exact absurd rfl nonempty
  | cons line lines ih =>
      obtain ⟨here, later⟩ := List.forall_mem_cons.1 plain
      cases lines with
      | nil =>
          have ends : ∀ c ∈ ([] : List Char).head?, c = '\n' := by rintro c ⟨⟩
          have read := readAll_text reading setting here ends soft place
          rw [List.append_nil] at read
          rw [List.intercalate_singleton, read, readAll]
          exact ⟨rfl, rfl⟩
      | cons next lines =>
          obtain ⟨first, -⟩ := List.forall_mem_cons.1 later
          have solid : ∀ c ∈ (['\n'].intercalate (next :: lines)).head?,
              Text.isSpaceOrTab c = false := by
            obtain ⟨c, rest, rfl, letter⟩ := first.exists_cons
            intro d isHead
            have same : d = c := by
              cases lines <;> simpa [List.intercalate_cons_cons, eq_comm] using isHead
            rw [same]
            exact isSpaceOrTab_of_not_isBlank letter
          rw [List.intercalate_cons_cons, List.append_assoc, List.singleton_append,
            readAll_text reading setting here (by simp) soft,
            readAll_feed _ setting (here.not_prefix_reverse _) solid]
          obtain ⟨brackets, parts⟩ := ih { Reading.push { reading.pushText line with
            seen := line.reverse ++ reading.seen } .softBreak with
              seen := '\n' :: (line.reverse ++ reading.seen) }
            (List.cons_ne_nil next lines) later (by rintro ⟨⟩) (place + line.length + 1)
          refine ⟨brackets, parts.trans ?_⟩
          simp [push, pushText, List.intersperse_cons_cons]

end Reading

theorem Inline.ofText_intercalate (setting : Setting) {lines : List (List Char)}
    (nonempty : lines ≠ []) (plain : ∀ line ∈ lines, PlainText line) (after : List Char)
    (blank : after.all Text.isAsciiBlank = true) :
    Inline.ofText setting (['\n'].intercalate lines ++ after) =
      (lines.map .text).intersperse .softBreak := by
  have kept : Text.dropEnd Text.isAsciiBlank (['\n'].intercalate lines) =
      ['\n'].intercalate lines := by
    obtain ⟨front, line, rfl⟩ := (List.eq_nil_or_concat lines).resolve_left nonempty
    have last := (plain line (by simp))
    obtain ⟨before, split⟩ : ∃ before, ['\n'].intercalate (front.concat line) = before ++ line := by
      clear nonempty plain last
      induction front with
      | nil => exact ⟨[], by simp⟩
      | cons first front ih =>
          obtain ⟨before, split⟩ := ih
          obtain ⟨next, more, isCons⟩ : ∃ next more, front.concat line = next :: more :=
            List.exists_cons_of_ne_nil (by simp)
          refine ⟨first ++ ['\n'] ++ before, ?_⟩
          rw [List.concat_cons, isCons, List.intercalate_cons_cons, ← isCons, split]
          simp only [List.append_assoc]
    rw [split, Text.dropEnd_append_of_ne_nil, last.dropEnd]
    rw [last.dropEnd]
    exact last.nonempty
  obtain ⟨brackets, parts⟩ := Reading.readAll_lines {} setting nonempty plain
    (by rintro ⟨⟩) 0
  rw [Inline.ofText, Text.dropEnd_append blank, kept, Reading.allParts, brackets,
    List.foldl_nil, parts, List.append_nil, List.reverse_reverse, emphasise, pairUp_nodes]
  rfl

/-! ## Lines of plain text -/

/-- Whether a character may start a line of plain text. -/
def opensText (c : Char) : Bool :=
  !Text.isBlank c && !Text.isAsciiMark c && !c.isDigit && c != '\uFEFF'

/-- A line of plain text that starts no block. -/
structure PlainLine (line : List Char) : Prop extends PlainText line where
  opens : line.head?.any opensText = true

instance (line : List Char) : Decidable (PlainLine line) :=
  decidable_of_iff (PlainText line ∧ line.head?.any opensText = true)
    ⟨fun ⟨text, opens⟩ => ⟨text, opens⟩, fun text => ⟨text.toPlainText, text.opens⟩⟩

theorem ne_of_opensText {c d : Char} (opens : opensText c = true)
    (closed : opensText d = false) : c ≠ d := by
  rintro rfl
  rw [opens] at closed
  cases closed

theorem solid_of_opensText {c : Char} (opens : opensText c = true) :
    Text.isSpaceOrTab c = false := by
  rw [Text.isSpaceOrTab, Bool.or_eq_false_iff, beq_eq_false_iff_ne, beq_eq_false_iff_ne]
  exact ⟨ne_of_opensText opens (by decide), ne_of_opensText opens (by decide)⟩

namespace PlainLine

variable {line : List Char}

theorem exists_cons (plain : PlainLine line) :
    ∃ c rest, line = c :: rest ∧ opensText c = true := by
  obtain ⟨c, rest, rfl⟩ := List.exists_cons_of_ne_nil plain.nonempty
  exact ⟨c, rest, rfl, plain.opens⟩

theorem indent (plain : PlainLine line) : Line.indent { left := line } = 0 := by
  obtain ⟨c, rest, rfl, opens⟩ := plain.exists_cons
  have solid := solid_of_opensText opens
  rw [Text.isSpaceOrTab, Bool.or_eq_false_iff] at solid
  rw [Line.indent, blankWidth, solid.1, solid.2, if_neg Bool.false_ne_true,
    if_neg Bool.false_ne_true]

theorem start? (plain : PlainLine line) (spine : Spine) (number depth : Nat) :
    spine.start? number depth { left := line } = none := by
  obtain ⟨c, rest, rfl, opens⟩ := plain.exists_cons
  have ne {d : Char} (closed : opensText d = false) : (c == d) = false :=
    beq_eq_false_iff_ne.2 (ne_of_opensText opens closed)
  have noQuote : ((c :: rest).head? == some '>') = false := by
    simpa using ne_of_opensText opens (d := '>') (by decide)
  have noHeading : headingStart? (c :: rest) = none := by
    rw [headingStart?, List.takeWhile_cons_of_neg]
    · rfl
    · rw [ne (by decide)]
      exact Bool.false_ne_true
  have noFence : fenceStart? (c :: rest) = none := by
    simp [fenceStart?, ne (d := '~') (by decide), ne (d := '\x60') (by decide)]
  have noHtml (inParagraph : Bool) : HtmlKind.ofLine? inParagraph (c :: rest) = none := by
    rw [HtmlKind.ofLine?]
    rintro s same
    cases same
    exact absurd opens (by decide)
  have noUnderline : underline? (c :: rest) = none := by
    simp [underline?, ne_of_opensText (d := '=') opens (by decide),
      ne_of_opensText (d := '-') opens (by decide)]
  have noRule : isRule (c :: rest) = false := by
    simp [isRule, ne (d := '*') (by decide), ne (d := '_') (by decide), ne (d := '-') (by decide)]
  have noItem (inParagraph : Bool) : itemStart? inParagraph (c :: rest) = none := by
    have noDigit : c.isDigit = false := by
      simp only [opensText, Bool.and_eq_true, Bool.not_eq_true'] at opens
      exact opens.1.2
    simp [itemStart?, ne (d := '*') (by decide), ne (d := '-') (by decide),
      ne (d := '+') (by decide), noDigit]
  unfold Spine.start?
  rw [plain.body, plain.indent]
  dsimp only
  rw [if_pos (by decide), noQuote, if_neg Bool.false_ne_true, noHeading, noFence, noHtml,
    noUnderline, noRule, noItem]
  simp

/-- Plain text has no row of hyphens. -/
theorem isDelimiterRow (plain : PlainLine line) : isDelimiterRow line = false := by
  obtain ⟨c, rest, rfl, opens⟩ := plain.exists_cons
  have ne {d : Char} (closed : opensText d = false) : c ≠ d := ne_of_opensText opens closed
  have noBlank : isRowBlank c = false := by
    rw [isRowBlank, solid_of_opensText opens]
    simp [ne (d := '\x0b') (by decide), ne (d := '\x0c') (by decide)]
  have kept {q : Char} (hasQ : c ≠ q) (s : List Char) :
      ∃ t, (if (c :: s).getLast? == some q then (c :: s).dropLast else c :: s) = c :: t := by
    split
    · rename_i last
      cases s with
      | nil => exact absurd (by simpa using last) hasQ
      | cons d s => exact ⟨_, List.dropLast_cons_cons⟩
    · exact ⟨s, rfl⟩
  obtain ⟨columns, isColumns⟩ := kept (ne (d := '|') (by decide)) (Text.dropEnd isRowBlank rest)
  have noMark (s : List Char) : isColumnMark (c :: s) = false := by
    obtain ⟨t, shorter⟩ := kept (ne (d := ':') (by decide)) (Text.dropEnd isRowBlank s)
    rw [isColumnMark, List.dropWhile_cons_of_neg (by rw [noBlank]; exact Bool.false_ne_true),
      Text.dropEnd_cons_of_not _ noBlank]
    have noColon : ((c :: Text.dropEnd isRowBlank s).head? == some ':') = false := by
      simpa using ne (d := ':') (by decide)
    rw [noColon, if_neg Bool.false_ne_true, shorter, List.all_cons,
      beq_eq_false_iff_ne.2 (ne (d := '-') (by decide)), Bool.false_and, Bool.and_false]
  obtain ⟨first, more, cut⟩ : ∃ first more, (c :: columns).splitOn '|' = (c :: first) :: more := by
    obtain ⟨first, more, split⟩ :=
      List.exists_cons_of_ne_nil (List.splitOnP_ne_nil (· == '|') columns)
    refine ⟨first, more, ?_⟩
    rw [List.splitOn, List.splitOnP_cons_eq_if_modifyHead,
      if_neg (by simpa using ne (d := '|') (by decide)), split]
    rfl
  have noBar : ((c :: rest).head? == some '|') = false := by
    simpa using ne (d := '|') (by decide)
  rw [Markdown.isDelimiterRow, noBar, if_neg Bool.false_ne_true, Text.dropEnd_cons_of_not _ noBlank,
    isColumns, cut, List.all_cons, noMark, Bool.false_and]


/-- Plain text starts no block, nor does it make a table of a paragraph. -/
theorem startAll (plain : PlainLine line) (tables : Bool) (number depth : Nat) (spine : Spine)
    (noLiteral : spine.container.isLiteral = false)
    (noTable : ∀ columns rows, spine.container.shape ≠ .table columns rows) :
    Spine.startAll tables number spine { left := line } depth = (spine, { left := line }) := by
  have noRow : spine.readTable { left := line } = (spine, { left := line }) := by
    rw [Spine.readTable]
    split
    · rw [plain.body, plain.isDelimiterRow, Bool.not_false, Bool.or_true, if_pos rfl]
    · exact absurd ‹_› (noTable _ _)
    · rfl
  rw [Spine.startAll, noLiteral, if_neg Bool.false_ne_true, plain.start?, noRow]
  exact ite_self _

end PlainLine

/-! ## Paragraphs -/

/-- A paragraph as an open block. -/
def paragraph (number : Nat) (content : List Char) : OpenBlock :=
  { shape := .paragraph content false, first := number }

/-- Plain text between two blocks begins a paragraph. -/
theorem readLine_first (tables blank : Bool) (drafts : List Draft) (number : Nat)
    {line : List Char} (plain : PlainLine line) :
    Progress.readLine tables ⟨[root blank drafts], []⟩ number line =
      ⟨[root false drafts, paragraph number (line ++ ['\n'])], []⟩ := by
  have started := plain.startAll tables number 1 ⟨root blank drafts, [], [], []⟩ rfl
    (fun _ _ same => by cases same)
  have read : Progress.readLine tables ⟨[root blank drafts], []⟩ number line =
      (Spine.finish (⟨root blank drafts, [], [], []⟩ : Spine) tables number
        { left := line } false).progress := rfl
  have noted : Spine.noteBlank ⟨root blank drafts, [], [], []⟩ number { left := line } =
      ⟨root false drafts, [], [], []⟩ := by
    rw [Spine.noteBlank, plain.isBlank]
    rfl
  have taken : Spine.takeText ⟨root false drafts, [], [], []⟩ number { left := line } =
      ⟨paragraph number (line ++ ['\n']), [root false drafts], [], []⟩ := by
    unfold Spine.takeText
    dsimp only
    change (if Line.isBlank { left := line } = true then _ else _) = _
    rw [plain.isBlank, if_neg Bool.false_ne_true, plain.body]
    rfl
  rw [read, Spine.finish, if_neg Bool.false_ne_true, started]
  dsimp only
  rw [noted, taken]
  rfl

/-- Plain text right after a paragraph goes on with it. -/
theorem readLine_further (tables blank : Bool) (drafts : List Draft) (first number : Nat)
    (content : List Char) {line : List Char} (plain : PlainLine line) :
    Progress.readLine tables ⟨[root blank drafts, paragraph first content], []⟩ number line =
      ⟨[root false drafts, paragraph first (content ++ (line ++ ['\n']))], []⟩ := by
  have goesOn : (paragraph first content).continuation false { left := line } =
      .continued { left := line } := by
    rw [OpenBlock.continuation, paragraph]
    dsimp only
    rw [plain.isBlank, if_neg Bool.false_ne_true]
  have followed : follow [] (root blank drafts) [] [paragraph first content] { left := line } =
      (⟨paragraph first content, [root blank drafts], [], []⟩, { left := line }, false) :=
    follow_of_continued goesOn
  have started := plain.startAll tables number 1
    ⟨paragraph first content, [root blank drafts], [], []⟩ rfl
    (fun _ _ same => by cases same)
  have noted : Spine.noteBlank ⟨paragraph first content, [root blank drafts], [], []⟩ number
      { left := line } = ⟨paragraph first content, [root false drafts], [], []⟩ := by
    rw [Spine.noteBlank, plain.isBlank]
    rfl
  have taken : Spine.takeText ⟨paragraph first content, [root false drafts], [], []⟩ number
      { left := line } =
        ⟨paragraph first (content ++ (line ++ ['\n'])), [root false drafts], [], []⟩ := by
    unfold Spine.takeText
    dsimp only
    change (if Line.isBlank { left := line } = true then _ else _) = _
    rw [plain.isBlank, if_neg Bool.false_ne_true, plain.body]
    rfl
  rw [Progress.readLine]
  dsimp only
  rw [followed]
  dsimp only
  rw [if_neg Bool.false_ne_true, started]
  dsimp only
  rw [noted, taken]
  rfl

/-- A paragraph that starts with plain text has no definitions. -/
theorem close_paragraph {first last : Nat} {content : List Char}
    (opens : content.head?.any opensText = true) (mark tight : Bool) :
    { paragraph first content with blankAfter := mark }.close [] last tight =
      (some (.block (.paragraph content) first last mark []), []) := by
  obtain ⟨c, rest, rfl, opens⟩ : ∃ c rest, content = c :: rest ∧ opensText c = true := by
    cases content with
    | nil => cases opens
    | cons c rest => exact ⟨c, rest, rfl, opens⟩
  have noDefinition : readDefinition? (c :: rest) = none := by
    have noBracket := ne_of_opensText (d := '[') opens (by decide)
    have noLabel : readLabel? (c :: rest) = none := by
      rw [readLabel?]
      rintro s same
      cases same
      exact noBracket rfl
    rw [readDefinition?, noLabel]
    rfl
  have taken : takeDefinitions [] (c :: rest) = ([], c :: rest) := by
    rw [takeDefinitions, noDefinition]
  have text : startsBlank (c :: rest) = false := by
    have solid := solid_of_opensText opens
    have noFeed := ne_of_opensText (d := '\n') opens (by decide)
    simp [startsBlank, solid, noFeed]
  rw [OpenBlock.close, paragraph]
  dsimp only
  rw [taken]
  dsimp only
  rw [text, if_neg Bool.false_ne_true]
  rfl

theorem readAs_paragraph (tables : Bool) {lines : List (List Char)} (nonempty : lines ≠ [])
    (plain : ∀ line ∈ lines, PlainLine line) :
    ReadAs tables lines (.paragraph (Text.ofLines lines)) := by
  obtain ⟨line, lines, rfl⟩ := List.exists_cons_of_ne_nil nonempty
  rw [List.forall_mem_cons] at plain
  intro blank drafts number
  have taken (lines : List (List Char)) (plain : ∀ line ∈ lines, PlainLine line)
      (content : List Char) (n : Nat) :
      (Progress.readLines tables ⟨[root false drafts, paragraph (number + 1) content], []⟩ n
        lines).1 =
      ⟨[root false drafts, paragraph (number + 1) (content ++ Text.ofLines lines)], []⟩ := by
    induction lines generalizing content n with
    | nil =>
        rw [Text.ofLines_nil, List.append_nil]
        rfl
    | cons line lines ih =>
        rw [List.forall_mem_cons] at plain
        rw [Progress.readLines, readLine_further tables false drafts _ n content plain.1,
          ih plain.2, Text.ofLines_cons, List.append_assoc]
  rw [Progress.readLines, readLine_first tables blank drafts _ plain.1, taken lines plain.2]
  refine .opened false _ rfl rfl ?_
  rw [Text.ofLines_cons]
  refine close_paragraph ?_
  obtain ⟨c, rest, rfl, opens⟩ := plain.1.exists_cons
  exact opens

/-! ## Headings -/

/-- A plain text that a heading can have: no marks at its end would be dropped. -/
structure PlainTitle (title : List Char) : Prop extends PlainText title where
  unclosed : title.getLast? ≠ some '#'

instance (title : List Char) : Decidable (PlainTitle title) :=
  decidable_of_iff (PlainText title ∧ title.getLast? ≠ some '#')
    ⟨fun ⟨text, unclosed⟩ => ⟨text, unclosed⟩, fun text => ⟨text.toPlainText, text.unclosed⟩⟩

theorem PlainTitle.headingText {title : List Char} (plain : PlainTitle title) :
    headingText title = title := by
  obtain ⟨c, rest, rfl, -⟩ := plain.exists_cons
  have kept : Text.dropEnd (· == '#') (c :: rest) = c :: rest := by
    refine Text.dropEnd_eq_self fun last isLast => beq_eq_false_iff_ne.2 ?_
    rintro rfl
    exact plain.unclosed isLast
  rw [Markdown.headingText, plain.dropEnd, kept]
  simp

/-- A line that is read as a heading starts with its mark. -/
theorem headingStart?_replicate {level : Nat} (positive : 1 ≤ level) (small : level ≤ 6)
    {c : Char} (solid : Text.isSpaceOrTab c = false) (rest : List Char) :
    headingStart? (List.replicate level '#' ++ ' ' :: c :: rest) = some (level, level + 1) := by
  have marks : ∀ d ∈ List.replicate level '#', (d == '#') = true := by
    intro d mem
    rw [List.eq_of_mem_replicate mem, beq_self_eq_true]
  have run : ((List.replicate level '#' ++ ' ' :: c :: rest).takeWhile (· == '#')).length =
      level := by
    rw [List.takeWhile_append_of_pos marks, List.takeWhile_cons_of_neg (by decide),
      List.append_nil, List.length_replicate]
  have gap : ((' ' :: c :: rest).takeWhile Text.isSpaceOrTab).length = 1 := by
    rw [List.takeWhile_cons_of_pos (by decide), List.takeWhile_cons_of_neg]
    · rfl
    · rw [solid]
      exact Bool.false_ne_true
  rw [headingStart?, run, List.drop_left' List.length_replicate, gap]
  simp [positive, small]

/-- A heading as an open block. -/
def heading (level number : Nat) (content : List Char) : OpenBlock :=
  { shape := .heading level content, first := number }

/-- The mark of a heading starts it and is passed over with the space after it. -/
theorem startAll_heading (tables blank : Bool) (drafts : List Draft) (number : Nat) {level : Nat}
    (positive : 1 ≤ level) (small : level ≤ 6) {title : List Char} (plain : PlainTitle title) :
    Spine.startAll tables number ⟨root blank drafts, [], [], []⟩
        { left := List.replicate level '#' ++ ' ' :: title } =
      (⟨heading level number [], [root blank drafts], [], []⟩,
        { left := title, column := level + 1 }) := by
  obtain ⟨c, rest, isTitle, letter⟩ := plain.exists_cons
  have mark := headingStart?_replicate positive small (isSpaceOrTab_of_not_isBlank letter) rest
  rw [← isTitle] at mark
  obtain ⟨n, rfl⟩ : ∃ n, level = n + 1 := ⟨level - 1, by omega⟩
  generalize isLine : List.replicate (n + 1) '#' ++ ' ' :: title = line at mark ⊢
  have shallow : Line.indent { left := line } = 0 := by
    rw [← isLine]
    rfl
  have isBody : Line.body { left := line } = line := by
    rw [← isLine]
    rfl
  have noQuote : (line.head? == some '>') = false := by
    rw [← isLine]
    rfl
  have skipped : Line.skip (Line.gap { left := line } + (n + 1 + 1)) { left := line } =
      { left := title, column := n + 2 } := by
    have gap : Line.gap { left := line } = 0 := by
      rw [← isLine]
      rfl
    rw [gap, Nat.zero_add, ← isLine, skip_replicate (n + 1) 1 (by decide), Nat.zero_add]
    rfl
  have start : Spine.start? ⟨root blank drafts, [], [], []⟩ number 1 { left := line } =
      some (⟨heading (n + 1) number [], [root blank drafts], [], []⟩,
        { left := title, column := n + 2 }) := by
    unfold Spine.start?
    dsimp only
    rw [shallow, if_pos (by decide), isBody, noQuote, if_neg Bool.false_ne_true, mark]
    dsimp only
    rw [skipped]
    rfl
  rw [Spine.startAll, start]
  rfl

theorem readLine_heading (tables blank : Bool) (drafts : List Draft) (number : Nat) {level : Nat}
    (positive : 1 ≤ level) (small : level ≤ 6) {title : List Char} (plain : PlainTitle title) :
    Progress.readLine tables ⟨[root blank drafts], []⟩ number
        (List.replicate level '#' ++ ' ' :: title) =
      ⟨[root false drafts, heading level number title], []⟩ := by
  have started := startAll_heading tables blank drafts number positive small plain
  have noted : Spine.noteBlank ⟨heading level number [], [root blank drafts], [], []⟩ number
      { left := title, column := level + 1 } =
        ⟨heading level number [], [root false drafts], [], []⟩ := by
    rw [Spine.noteBlank, plain.isBlank]
    rfl
  have taken : Spine.takeText ⟨heading level number [], [root false drafts], [], []⟩ number
      { left := title, column := level + 1 } =
        ⟨heading level number title, [root false drafts], [], []⟩ := by
    unfold Spine.takeText
    dsimp only [heading, Spine.closeInner, closeChain, OpenBlock.push?]
    rw [plain.body, plain.headingText]
    rfl
  have read : Progress.readLine tables ⟨[root blank drafts], []⟩ number
      (List.replicate level '#' ++ ' ' :: title) =
        (Spine.finish (⟨root blank drafts, [], [], []⟩ : Spine) tables number
          { left := List.replicate level '#' ++ ' ' :: title } false).progress := rfl
  rw [read, Spine.finish, if_neg Bool.false_ne_true, started]
  dsimp only
  rw [noted, taken]
  rfl

theorem readAs_heading (tables : Bool) {level : Nat} (positive : 1 ≤ level) (small : level ≤ 6)
    {title : List Char} (plain : PlainTitle title) :
    ReadAs tables [List.replicate level '#' ++ ' ' :: title] (.heading level title) := by
  intro blank drafts number
  rw [Progress.readLines, Progress.readLines,
    readLine_heading tables blank drafts _ positive small plain]
  exact .opened false _ rfl rfl fun _ _ => rfl

end Markdown

end UiMarkdown
