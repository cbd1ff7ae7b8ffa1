import UiMarkdown.Markdown.Parse
import UiMarkdown.Proofs.Markdown.Chain
import UiMarkdown.Proofs.Markdown.Line
import UiMarkdown.Proofs.Markdown.Target

/-!
# Positions of blocks

Every line keeps the chain of open blocks laid out: what it closes lies before
what it opens.  Hence no two top level blocks of a text share a line.
-/

namespace UiMarkdown

namespace Markdown

/-- The text before the header of a table is empty or has the end of its last line. -/
theorem preface_headerCells (content : List Char) :
    (headerCells content).2 <+: content ∧ Text.EndsLine (headerCells content).2 := by
  rw [headerCells]
  dsimp only
  rcases List.eq_nil_or_concat' (Text.linesWithEnds content) with none | ⟨before, last, split⟩
  · rw [none]
    exact ⟨List.nil_prefix, Text.endsLine_nil⟩
  · rw [split, List.dropLast_concat]
    refine ⟨⟨last, ?_⟩, Text.endsLine_flatten split⟩
    rw [← Text.flatten_linesWithEnds content, split, List.flatten_append, List.flatten_singleton]

/-! ## What a line does to the chain -/

def OpenShape.isItem : OpenShape → Bool
  | .item _ => true
  | _ => false

namespace Spine

theorem openBlock_eq (spine : Spine) (shape : OpenShape) (number : Nat) :
    spine.openBlock shape number =
      { spine.makeRoom shape.isItem (number - 1) with
        container := { shape, first := number }
        around := (spine.makeRoom shape.isItem (number - 1)).container ::
          (spine.makeRoom shape.isItem (number - 1)).around } := by
  cases shape <;> rfl

/-- The open blocks are laid out while a line is read; those it does not continue are older. -/
structure Sound (number : Nat) (spine : Spine) : Prop where
  laid : Laid number number spine.chain
  earlier : ∀ block ∈ spine.inner, block.first < number

theorem Sound.container {number : Nat} {spine : Spine} (sound : spine.Sound number) :
    spine.container.Sound number number :=
  sound.laid.sound _ (List.mem_append_right _ List.mem_cons_self)

theorem Sound.pred_lt {number : Nat} {spine : Spine} (sound : spine.Sound number) :
    number - 1 < number :=
  Nat.sub_lt sound.container.inside.one_le Nat.one_pos

theorem chain_closeInner (spine : Spine) (last : Nat) :
    (spine.closeInner last).chain = spine.around.reverse ++
      [spine.container.push? (closeChain spine.definitions last spine.inner).1] :=
  rfl

theorem laid_closeInner {latest bound last bound' : Nat} {spine : Spine}
    (laid : Laid latest bound spine.chain) (order : ∀ block ∈ spine.inner, block.first ≤ last)
    (before : last < bound') (bound_le : bound ≤ bound') :
    Laid latest bound' (spine.closeInner last).chain := by
  rw [chain_closeInner]
  rw [chain] at laid
  cases inner : spine.inner with
  | nil =>
      rw [inner] at laid
      exact laid.mono (Nat.le_refl _) bound_le
  | cons block more =>
      rw [inner] at laid
      exact laid.push? (fun draft closed => lines_of_closeChain closed)
        (order block (inner ▸ List.mem_cons_self)) before bound_le

theorem Sound.closeInner {number : Nat} {spine : Spine} (sound : spine.Sound number) :
    Laid number number (spine.closeInner (number - 1)).chain :=
  laid_closeInner sound.laid (fun block mem => Nat.le_sub_one_of_lt (sound.earlier block mem))
    sound.pred_lt (Nat.le_refl _)

theorem laid_makeRoom {number : Nat} {spine : Spine} {isItem : Bool} (sound : spine.Sound number)
    (ready : spine.container.holds isItem = true ∨ spine.container.first < number) :
    Laid number number (spine.makeRoom isItem (number - 1)).chain ∧
      (spine.makeRoom isItem (number - 1)).inner = [] := by
  rw [makeRoom]
  split
  · exact ⟨sound.closeInner, rfl⟩
  · rename_i cannot
    dsimp only
    split
    · exact ⟨sound.closeInner, rfl⟩
    · rename_i outer around isAround
      have closed := sound.closeInner
      have older : (spine.closeInner (number - 1)).container.first < number := by
        rw [Spine.closeInner, OpenBlock.first_push?]
        exact ready.resolve_left cannot
      rw [chain, isAround, List.reverse_cons, List.append_assoc] at closed
      exact ⟨closed.push? (fun draft => OpenBlock.lines_of_close) (Nat.le_sub_one_of_lt older)
        sound.pred_lt (Nat.le_refl _), rfl⟩

/-- A block that a line opens begins with the line, behind all that is closed. -/
theorem laid_openBlock {number bound : Nat} {spine : Spine} {shape : OpenShape}
    (sound : spine.Sound number)
    (ready : spine.container.holds shape.isItem = true ∨ spine.container.first < number)
    (fits : number + OpenBlock.breaks { shape, first := number } ≤ bound) :
    Laid number bound (spine.openBlock shape number).chain ∧
      (spine.openBlock shape number).inner = [] := by
  obtain ⟨laid, inner⟩ := laid_makeRoom sound ready
  rw [openBlock_eq, chain]
  rw [chain, inner] at laid
  dsimp only
  have last := laid.sound _ (List.mem_append_right _ List.mem_cons_self)
  have wider := Nat.le_trans (Nat.le_add_right number _) fits
  have opened : OpenBlock.Sound number bound { shape, first := number } :=
    ⟨Nat.le_refl _, fits, Nat.le_trans last.inside.one_le wider⟩
  refine ⟨?_, inner⟩
  rw [inner, List.reverse_cons, List.append_assoc]
  exact laid.graft (.cons (last.mono (Nat.le_refl _) wider) last.inside (.singleton opened)) rfl
    (Nat.le_refl _) wider

theorem Sound.openBlock {number : Nat} {spine : Spine} {shape : OpenShape}
    (sound : spine.Sound number)
    (ready : spine.container.holds shape.isItem = true ∨ spine.container.first < number)
    (textless : OpenBlock.breaks { shape, first := number } = 0) :
    (spine.openBlock shape number).Sound number := by
  obtain ⟨laid, inner⟩ := laid_openBlock sound ready (Nat.le_of_eq (congrArg (number + ·) textless))
  refine ⟨laid, ?_⟩
  rw [inner]
  exact List.forall_mem_nil _

/-! ## Starting blocks -/

/-- A line that is not used up finds a block that it can end or put a block into. -/
def Ready (number : Nat) (spine : Spine) (line : Line) : Prop :=
  spine.container.holds false = true ∨ spine.container.first < number ∨ line.isBlank = true

/--
What starting blocks leads to: the chain stays laid out, and the rest of the
line is for a block that takes text, or finds one that it can go on from.
-/
structure Started (number : Nat) (line : Line) (next : Spine) (rest : Line) : Prop where
  sound : next.Sound number
  ready : next.container.takesText = true ∨ next.Ready number rest
  left : rest.left <:+ line.left

theorem Started.trans {number : Nat} {line middle rest : Line} {next : Spine}
    (later : Started number middle next rest) (left : middle.left <:+ line.left) :
    Started number line next rest :=
  ⟨later.sound, later.ready, later.left.trans left⟩

theorem Sound.alter {number : Nat} {spine : Spine} (sound : spine.Sound number)
    {container : OpenBlock} (definitions : Definitions)
    (first : container.first = spine.container.first)
    (inside : container.inside = spine.container.inside)
    (breaks : container.breaks ≤ spine.container.breaks) :
    Sound number { spine with container, definitions } := by
  refine ⟨sound.laid.alter first inside ?_, sound.earlier⟩
  rw [first]
  exact Nat.le_trans (Nat.add_le_add_left breaks _) sound.container.reaches

theorem started_underline {number : Nat} {spine : Spine} {content : List Char}
    {noTable : Bool} (sound : spine.Sound number)
    (paragraph : spine.container.shape = .paragraph content noTable) (level : Nat) (line : Line) :
    Started number line (spine.underline level content noTable line).1
      (spine.underline level content noTable line).2 := by
  have breaks : spine.container.breaks = content.count '\n' := by
    rw [OpenBlock.breaks, paragraph]
  have fewer := (suffix_takeDefinitions spine.definitions content).sublist.count_le '\n'
  rw [underline]
  dsimp only
  split
  · exact ⟨sound.alter _ rfl rfl (breaks ▸ fewer), .inl rfl, List.suffix_rfl⟩
  · refine ⟨sound.alter _ rfl rfl (Nat.zero_le _), .inl rfl, ?_⟩
    exact line.left_toEnd ▸ List.nil_suffix

theorem started_openItem {number start length : Nat} {spine : Spine} {mark : ListMark}
    {line : Line} (sound : spine.Sound number)
    (ready : spine.container.holds false = true ∨ spine.container.first < number) :
    Started number line (spine.openItem number mark start length line).1
      (spine.openItem number mark start length line).2 := by
  have item (goesOn : Bool) (isList : goesOn = true → spine.container.holds true = true)
      (indent : Nat) :
      Sound number ((if goesOn then spine else spine.openBlock (.list mark start) number).openBlock
        (.item indent) number) := by
    cases goesOn with
    | true => exact sound.openBlock (.inl (isList rfl)) rfl
    | false =>
        have opened : Sound number (spine.openBlock (.list mark start) number) :=
          sound.openBlock ready rfl
        exact opened.openBlock (.inl rfl) rfl
  unfold openItem
  dsimp only
  refine ⟨item _ ?_ _, .inr (.inl rfl), ?_⟩
  · intro goesOn
    split at goesOn
    · rename_i isList
      rw [OpenBlock.holds, isList]
    · cases goesOn
  · split
    · exact line.suffix_skip _
    · exact (Line.suffix_skipColumns _ _).trans (line.suffix_skip _)

/-- A table begins behind the lines that it leaves to a paragraph. -/
theorem started_openTable {number : Nat} {spine next : Spine} {content : List Char}
    {noTable : Bool} {line rest : Line} (sound : spine.Sound number)
    (paragraph : spine.container.shape = .paragraph content noTable)
    (found : spine.openTable content line = some (next, rest)) :
    Started number line next rest := by
  obtain ⟨isPrefix, ends⟩ := preface_headerCells content
  have reaches := sound.container.reaches
  rw [OpenBlock.breaks, paragraph] at reaches
  dsimp only at reaches
  unfold openTable at found
  generalize headerCells content = header at isPrefix ends found
  obtain ⟨cells, preface⟩ := header
  dsimp only at isPrefix ends found
  have fewer := isPrefix.sublist.count_le '\n'
  split at found
  · cases found
  · cases found
    refine ⟨⟨?_, sound.earlier⟩, .inr (.inr (.inr line.isBlank_toEnd)),
      line.left_toEnd ▸ List.nil_suffix⟩
    have laid := sound.laid
    rw [chain] at laid ⊢
    dsimp only
    generalize isTable : OpenBlock.mk (.table cells.length [cells])
      (spine.container.first + preface.count '\n') false [] = table
    have start : table.first = spine.container.first + preface.count '\n' := by rw [← isTable]
    have tableLaid : Laid number number (table :: spine.inner) := by
      subst isTable
      refine laid.right_of_append.head ⟨?_, ?_, sound.container.inside.one_le⟩
        fun _ stacked => stacked.one_le
      · exact Nat.le_trans (Nat.add_le_add_left fewer _) reaches
      · exact Nat.le_trans (Nat.add_le_add_left fewer _) reaches
    cases isAround : spine.around with
    | nil => exact tableLaid
    | cons outer more =>
        rw [isAround] at laid
        dsimp only
        split
        · rename_i none
          rw [List.isEmpty_iff.1 none, List.count_nil, Nat.add_zero] at start
          exact laid.graft tableLaid start (Nat.le_refl _) (Nat.le_refl _)
        · rename_i some
          have feeds : 0 < preface.count '\n' := by
            rw [List.isEmpty_iff] at some
            rw [List.count_pos_iff, ← ends _ (List.getLast?_eq_getLast_of_ne_nil some)]
            exact List.getLast_mem some
          rw [List.reverse_cons, List.append_assoc, List.singleton_append] at laid ⊢
          rw [← start]
          refine laid.divide tableLaid rfl ?_ ?_
          · change spine.container.first ≤ table.first - 1
            omega
          · change table.first - 1 < table.first
            omega

theorem start?_of_isBlank {number depth : Nat} (spine : Spine) {line : Line}
    (blank : line.isBlank = true) : spine.start? number depth line = none := by
  unfold start?
  rw [Line.body_of_isBlank blank, blank]
  simp [headingStart?, fenceStart?, HtmlKind.ofLine?, underline?, isRule, itemStart?]

/-- What starts on a line keeps the chain laid out. -/
theorem started_start? {number depth : Nat} {spine next : Spine} {line rest : Line}
    (sound : spine.Sound number) (ready : spine.Ready number line)
    (found : spine.start? number depth line = some (next, rest)) :
    Started number line next rest := by
  -- nothing starts on a blank line, so what starts finds a block that can hold it or be ended
  have ready : spine.container.holds false = true ∨ spine.container.first < number := by
    rcases ready with holds | older | blank
    · exact .inl holds
    · exact .inr older
    · rw [start?_of_isBlank spine blank] at found
      cases found
  unfold start? at found
  dsimp only at found
  split at found
  · split at found
    · cases found
      exact ⟨sound.openBlock ready rfl, .inr (.inl rfl),
        (Line.suffix_skipOptional _).trans (line.suffix_skip _)⟩
    · split at found
      · cases found
        exact ⟨sound.openBlock ready rfl, .inl rfl, line.suffix_skip _⟩
      · split at found
        · cases found
          exact ⟨sound.openBlock ready rfl, .inl rfl, line.suffix_skip _⟩
        · split at found
          · cases found
            exact ⟨sound.openBlock ready rfl, .inl rfl, List.suffix_rfl⟩
          · split at found
            · rename_i level paragraph _
              have started := started_underline sound paragraph level line
              rwa [Option.some.inj found] at started
            · split at found
              · cases found
                exact ⟨sound.openBlock ready rfl, .inr (.inr (.inr line.isBlank_toEnd)),
                  line.left_toEnd ▸ List.nil_suffix⟩
              · split at found
                · split at found
                  · rename_i mark start length _ _
                    have started : Started number line
                        (spine.openItem number mark start length line).1
                        (spine.openItem number mark start length line).2 :=
                      started_openItem sound ready
                    rwa [Option.some.inj found] at started
                  · cases found
                · cases found
  · split at found
    · cases found
      exact ⟨sound.openBlock ready rfl, .inl rfl, Line.suffix_skipColumns 4 line⟩
    · cases found

theorem started_readTable {number : Nat} {spine : Spine} {line : Line}
    (sound : spine.Sound number) (ready : spine.Ready number line) :
    Started number line (spine.readTable line).1 (spine.readTable line).2 := by
  have stays : Started number line spine line := ⟨sound, .inr ready, List.suffix_rfl⟩
  rw [readTable]
  split
  · rename_i content noTable paragraph
    have breaks : spine.container.breaks = content.count '\n' := by
      rw [OpenBlock.breaks, paragraph]
    split
    · exact stays
    · cases opened : spine.openTable content line with
      | none =>
          exact ⟨sound.alter spine.definitions rfl rfl (Nat.le_of_eq breaks.symm), .inl rfl,
            List.suffix_rfl⟩
      | some found => exact started_openTable sound paragraph opened
  · split
    · exact stays
    · exact ⟨sound.alter spine.definitions rfl rfl (Nat.zero_le _),
        .inr (.inr (.inr line.isBlank_toEnd)), line.left_toEnd ▸ List.nil_suffix⟩
  · exact stays

/-- Starting blocks one after another keeps the chain laid out. -/
theorem started_startAll (tables : Bool) {number : Nat} {spine : Spine} {line : Line}
    (depth : Nat) (sound : spine.Sound number) (ready : spine.Ready number line) :
    Started number line (startAll tables number spine line depth).1
      (startAll tables number spine line depth).2 := by
  fun_induction startAll tables number spine line depth with
  | case1 spine line depth literal => exact ⟨sound, .inr ready, List.suffix_rfl⟩
  | case2 spine line depth _ next rest found takes => exact started_start? sound ready found
  | case3 spine line depth _ next rest found takes shorter ih =>
      have started := started_start? sound ready found
      exact (ih started.sound (started.ready.resolve_left takes)).trans started.left
  | case4 spine line depth _ next rest found => exact started_start? sound ready found
  | case5 spine line depth => exact started_readTable sound ready
  | case6 spine line depth => exact ⟨sound, .inr ready, List.suffix_rfl⟩

/-! ## The end of a line -/

theorem alike_noteBlank (number : Nat) (spine : Spine) (line : Line) :
    spine.container.Alike (spine.noteBlank number line).container ∧
      List.Forall₂ OpenBlock.Alike spine.around (spine.noteBlank number line).around ∧
      List.Forall₂ OpenBlock.Alike spine.inner (spine.noteBlank number line).inner := by
  have same (blocks : List OpenBlock) : List.Forall₂ OpenBlock.Alike blocks blocks :=
    List.forall₂_same.2 fun block _ => ⟨rfl, rfl, fun _ stacked => stacked⟩
  have unmarked : List.Forall₂ OpenBlock.Alike spine.around
      (spine.around.map fun block => { block with blankAfter := false }) :=
    List.forall₂_map_right_iff.2
      (List.forall₂_same.2 fun block _ => ⟨rfl, rfl, fun _ stacked => stacked⟩)
  unfold noteBlank
  dsimp only
  cases line.isBlank with
  | false => exact ⟨⟨rfl, rfl, fun _ stacked => stacked⟩, unmarked, same _⟩
  | true =>
      cases spine.inner with
      | cons block more =>
          exact ⟨⟨rfl, rfl, fun _ stacked => stacked⟩, unmarked,
            .cons ⟨rfl, rfl, fun _ stacked => stacked⟩ (same more)⟩
      | nil =>
          refine ⟨⟨rfl, rfl, fun bound stacked => ?_⟩, unmarked, ?_⟩
          · cases inside : spine.container.inside with
            | nil =>
                rw [inside] at stacked
                exact stacked
            | cons draft more =>
                rw [inside] at stacked
                exact stacked.setBlank
          · cases spine.container.inside <;> exact .nil

/-- Marks for blank lines move nothing. -/
theorem Sound.noteBlank {number : Nat} {spine : Spine} (sound : spine.Sound number)
    (line : Line) : (spine.noteBlank number line).Sound number := by
  obtain ⟨container, around, inner⟩ := alike_noteBlank number spine line
  refine ⟨sound.laid.alike ?_, ?_⟩
  · exact List.rel_append (List.forall₂_reverse_iff.2 around) (.cons container inner)
  · intro block mem
    obtain ⟨older, isOlder, alike⟩ := OpenBlock.exists_alike_of_mem inner mem
    rw [alike.first]
    exact sound.earlier older isOlder

theorem Started.noteBlank {number : Nat} {line rest : Line} {next : Spine}
    (started : Started number line next rest) :
    (next.noteBlank number rest).container.takesText = true ∨
      (next.noteBlank number rest).Ready number rest := by
  have alike := (alike_noteBlank number next rest).1
  rw [Ready, OpenBlock.takesText, OpenBlock.holds, alike.first, alike.shape]
  exact started.ready

/-- The container may take text; one line of it, if it is a paragraph. -/
theorem Sound.laid_append {number : Nat} {spine : Spine} (sound : spine.Sound number)
    (text : List Char)
    (few : spine.container.isParagraph = true → text.count '\n' ≤ 1) :
    Laid number (number + 1)
      { spine with container := spine.container.append text }.chain := by
  refine (sound.laid.mono (Nat.le_refl _) (Nat.le_succ _)).alter rfl rfl ?_
  have reaches := sound.container.reaches
  cases isParagraph : spine.container.isParagraph with
  | true =>
      have breaks := spine.container.breaks_append_le text
      have few := few isParagraph
      change spine.container.first + (spine.container.append text).breaks ≤ number + 1
      omega
  | false =>
      rw [OpenBlock.breaks_append_of_not_isParagraph isParagraph]
      exact Nat.le_succ_of_le sound.container.begun

/-- The line that ends raw Html is its last one, and nothing can follow it on the line. -/
theorem Sound.laid_endHtml {number : Nat} {spine : Spine} (sound : spine.Sound number)
    (empty : spine.inner = []) (other : spine.container.isParagraph = false)
    {outer : OpenBlock} {around : List OpenBlock} (isAround : spine.around = outer :: around)
    (text : List Char) (tight : Bool) :
    Laid number (number + 1) { spine with
      container := outer.push ((spine.container.append text).toDraft number tight)
      around }.chain := by
  have laid := sound.laid_append text
    fun isParagraph => absurd (other.symm.trans isParagraph) Bool.false_ne_true
  rw [chain] at laid
  dsimp only at laid
  rw [isAround, List.reverse_cons, List.append_assoc, List.singleton_append] at laid
  rw [chain]
  dsimp only
  rw [empty]
  exact laid.push rfl sound.container.begun (Nat.lt_succ_self number) (Nat.le_refl _)

/-- Text that no open block takes begins a paragraph. -/
theorem Sound.laid_openParagraph {number : Nat} {spine : Spine} {line : Line}
    (sound : spine.Sound number)
    (ready : spine.container.takesText = true ∨ spine.Ready number line)
    (other : spine.container.takesText = false) (filled : line.isBlank ≠ true)
    {text : List Char} (oneFeed : text.count '\n' = 1) (noTable : Bool) :
    Laid number (number + 1) (spine.openBlock (.paragraph text noTable) number).chain := by
  refine (laid_openBlock sound ?_ ?_).1
  · rcases ready with takes | holds | older | blank
    · exact absurd (other.symm.trans takes) Bool.false_ne_true
    · exact .inl holds
    · exact .inr older
    · exact absurd blank filled
  · exact Nat.add_le_add_left (Nat.le_of_eq oneFeed) number

theorem laid_takeText {number : Nat} {spine : Spine} {line : Line} (sound : spine.Sound number)
    (ready : spine.container.takesText = true ∨ spine.Ready number line)
    (inside : '\n' ∉ line.left) : Laid number (number + 1) (spine.takeText number line).chain := by
  have closed : (spine.closeInner (number - 1)).Sound number :=
    ⟨sound.closeInner, List.forall_mem_nil _⟩
  have ready : (spine.closeInner (number - 1)).container.takesText = true ∨
      (spine.closeInner (number - 1)).Ready number line := by
    rw [Ready, closeInner, OpenBlock.takesText, OpenBlock.holds, OpenBlock.first_push?,
      OpenBlock.shape_push?]
    exact ready
  have oneFeed : (line.body ++ ['\n']).count '\n' = 1 := by
    rw [List.count_append, List.count_eq_zero.2 fun mem => inside (line.suffix_body.subset mem)]
    rfl
  have empty : (spine.closeInner (number - 1)).inner = [] := rfl
  unfold takeText
  generalize spine.closeInner (number - 1) = spine at closed ready empty
  have stays : Laid number (number + 1) spine.chain :=
    closed.laid.mono (Nat.le_refl _) (Nat.le_succ _)
  have textual (text : List Char) (other : spine.container.isParagraph = false) :=
    closed.laid_append text fun isParagraph =>
      absurd (other.symm.trans isParagraph) Bool.false_ne_true
  dsimp only
  split
  · rename_i fenced
    exact textual _ (by rw [OpenBlock.isParagraph, fenced])
  · rename_i indented
    exact textual _ (by rw [OpenBlock.isParagraph, indented])
  · rename_i kind source html
    have other : spine.container.isParagraph = false := by rw [OpenBlock.isParagraph, html]
    split
    · rename_i isAround
      split
      · exact closed.laid_endHtml empty other isAround _ _
      · exact textual _ other
    · exact textual _ other
  · rename_i heading
    exact textual _ (by rw [OpenBlock.isParagraph, heading])
  · split
    · exact stays
    · exact closed.laid_append _ fun _ => Nat.le_of_eq oneFeed
  · rename_i notFenced notIndented notHtml notHeading notParagraph
    split
    · exact stays
    · rename_i filled
      have other : spine.container.takesText = false := by
        unfold OpenBlock.takesText
        split
        · exact absurd ‹_› (notParagraph _ _)
        · exact absurd ‹_› (notHeading _ _)
        · exact absurd ‹_› (notFenced _ _ _ _)
        · exact absurd ‹_› (notIndented _)
        · exact absurd ‹_› (notHtml _ _)
        · rfl
      exact closed.laid_openParagraph ready other filled oneFeed false

/-- A line that only goes on with a paragraph adds to the innermost block. -/
theorem laid_lazyText? {number : Nat} {spine next : Spine} {line : Line}
    (sound : spine.Sound number) (inside : '\n' ∉ line.left)
    (found : spine.lazyText? line = some next) : Laid number (number + 1) next.chain := by
  unfold lazyText? at found
  split at found
  · rename_i block outer isInner
    split at found
    · cases found
      have laid := sound.laid
      rw [chain, ← List.reverse_reverse spine.inner, isInner, List.reverse_cons,
        ← List.cons_append, ← List.append_assoc] at laid
      have innermost := laid.sound block (List.mem_append_right _ List.mem_cons_self)
      rw [chain]
      dsimp only
      rw [List.reverse_cons, ← List.cons_append, ← List.append_assoc]
      refine (laid.mono (Nat.le_refl number) (Nat.le_succ number)).alter rfl rfl ?_
      have breaks := block.breaks_append_le (line.text ++ ['\n'])
      rw [List.count_append, List.count_eq_zero.2 (Line.feed_not_mem_text inside), Nat.zero_add]
        at breaks
      exact Nat.le_trans (Nat.add_le_add_left breaks _) (Nat.succ_le_succ innermost.reaches)
    · cases found
  · cases found

theorem laid_closeFence {number : Nat} {spine : Spine} (sound : spine.Sound number) :
    Laid number (number + 1) (spine.closeFence number).chain :=
  laid_closeInner sound.laid (fun block mem => Nat.le_of_lt (sound.earlier block mem))
    (Nat.lt_succ_self number) (Nat.le_succ number)

end Spine

/-! ## Lines one after another -/

theorem suffix_of_continued {block : OpenBlock} {hasInside : Bool} {line rest : Line}
    (continued : block.continuation hasInside line = .continued rest) :
    rest.left <:+ line.left := by
  unfold OpenBlock.continuation at continued
  split at continued
  all_goals
    repeat' split at continued
    all_goals cases continued
  all_goals first
    | exact List.suffix_rfl
    | exact line.suffix_skipColumns _
    | exact (Line.suffix_skipOptional _).trans (line.suffix_skipColumns _)
    | exact line.suffix_skip _

/-- Following a line into the chain leaves the chain as it is. -/
theorem chain_follow (definitions : Definitions) (container : OpenBlock)
    (around inner : List OpenBlock) (line : Line) :
    (follow definitions container around inner line).1.chain =
      around.reverse ++ container :: inner := by
  induction inner generalizing container around line with
  | nil => rfl
  | cons block inner ih =>
      rw [follow]
      split
      · rw [ih, List.reverse_cons, List.append_assoc, List.singleton_append]
      · rfl
      · rfl

/-- Following stops at the block where it began or further inside. -/
theorem followed_of_follow (definitions : Definitions) (container : OpenBlock)
    (around inner : List OpenBlock) (line : Line) :
    (follow definitions container around inner line).1.container ::
        (follow definitions container around inner line).1.inner <:+ container :: inner ∧
      (follow definitions container around inner line).2.1.left <:+ line.left := by
  induction inner generalizing container around line with
  | nil => exact ⟨List.suffix_rfl, List.suffix_rfl⟩
  | cons block inner ih =>
      rw [follow]
      split
      · rename_i rest continued
        obtain ⟨blocks, left⟩ := ih block (container :: around) rest
        exact ⟨blocks.trans (List.suffix_cons _ _), left.trans (suffix_of_continued continued)⟩
      · exact ⟨List.suffix_rfl, List.suffix_rfl⟩
      · exact ⟨List.suffix_rfl, List.suffix_rfl⟩

namespace Progress

/-- Before a line the chain is laid out, and every block is older than the line but perhaps the
outermost, which holds others. -/
structure Sound (number : Nat) (progress : Progress) : Prop where
  laid : Laid number number progress.chain
  ready : ∀ block ∈ progress.chain.head?, block.holds false = true ∨ block.first < number
  earlier : ∀ block ∈ progress.chain.tail, block.first < number

theorem Sound.of_laid {number : Nat} {progress : Progress}
    (laid : Laid number (number + 1) progress.chain) : progress.Sound (number + 1) where
  laid := laid.mono (Nat.le_succ number) (Nat.le_refl _)
  ready block first := .inr (Nat.lt_succ_of_le (laid.sound block (List.mem_of_mem_head? first)).begun)
  earlier block mem := Nat.lt_succ_of_le (laid.sound block (List.mem_of_mem_tail mem)).begun

/-- A line keeps the chain laid out. -/
theorem Sound.readLine {tables : Bool} {progress : Progress} {number : Nat} {text : List Char}
    (sound : progress.Sound number) (oneLine : '\n' ∉ text) :
    (progress.readLine tables number text).Sound (number + 1) := by
  refine .of_laid ?_
  rw [Progress.readLine]
  obtain ⟨laid, ready, earlier⟩ := sound
  split
  · exact laid.mono (Nat.le_refl _) (Nat.le_succ _)
  · rename_i document inner isChain
    rw [isChain] at laid ready earlier
    have chain := chain_follow progress.definitions document [] inner { left := text }
    obtain ⟨blocks, left⟩ := followed_of_follow progress.definitions document [] inner { left := text }
    dsimp only
    generalize follow progress.definitions document [] inner { left := text } = followed
      at chain blocks left
    obtain ⟨spine, line, closed⟩ := followed
    dsimp only at chain blocks left ⊢
    have oneLine : '\n' ∉ line.left := fun feed => oneLine (left.subset feed)
    have older : (spine.container = document ∨ spine.container.first < number) ∧
        ∀ block ∈ spine.inner, block.first < number := by
      rcases List.suffix_cons_iff.1 blocks with all | some
      · cases all
        exact ⟨.inl rfl, earlier⟩
      · exact ⟨.inr (earlier _ (some.subset List.mem_cons_self)),
          fun block mem => earlier block (some.subset (List.mem_cons_of_mem _ mem))⟩
    have sound : spine.Sound number := ⟨by rw [chain]; exact laid, older.2⟩
    have ready : spine.Ready number line := by
      rcases older.1 with rfl | first
      · exact (ready _ rfl).imp_right .inl
      · exact .inr (.inl first)
    split
    · exact Spine.laid_closeFence sound
    · have started := Spine.started_startAll tables 1 sound ready
      generalize Spine.startAll tables number spine line = result at started
      obtain ⟨next, rest⟩ := result
      have oneLine : '\n' ∉ rest.left := fun feed => oneLine (started.left.subset feed)
      have noted := started.sound.noteBlank rest
      cases isLazy : (next.noteBlank number rest).lazyText? rest with
      | some lazy => exact Spine.laid_lazyText? noted oneLine isLazy
      | none => exact Spine.laid_takeText noted started.noteBlank oneLine

/-- Lines one after another keep the chain laid out, and are counted. -/
theorem Sound.readLines (tables : Bool) {progress : Progress} {number : Nat}
    {lines : List (List Char)} (sound : progress.Sound number)
    (oneLine : ∀ line ∈ lines, '\n' ∉ line) :
    (progress.readLines tables number lines).1.Sound (number + lines.length) ∧
      (progress.readLines tables number lines).2 = number + lines.length - 1 := by
  induction lines generalizing progress number with
  | nil => exact ⟨sound, rfl⟩
  | cons line more ih =>
      obtain ⟨here, later⟩ := List.forall_mem_cons.1 oneLine
      rw [Progress.readLines, List.length_cons, Nat.add_comm more.length 1, ← Nat.add_assoc]
      exact ih (sound.readLine here) later

end Progress

/-- The drafts of a text lie one behind the other on its lines. -/
theorem stacked_readDrafts (tables : Bool) (s : List Char) :
    Draft.Stacked ((textLines s).length + 1) (readDrafts tables s).1 := by
  have start : Progress.Sound 1 ⟨[{ shape := .document, first := 1 }], []⟩ :=
    ⟨.singleton ⟨Nat.le_refl _, Nat.le_refl _, Nat.le_refl 1⟩,
      fun _ first => .inl (Option.mem_some_iff.1 first ▸ rfl), List.forall_mem_nil _⟩
  obtain ⟨sound, counted⟩ :=
    start.readLines tables fun line mem => feed_not_mem_of_mem_textLines mem
  rw [Nat.add_comm, Nat.add_sub_cancel] at counted
  rw [readDrafts]
  dsimp only
  generalize Progress.readLines tables ⟨[{ shape := .document, first := 1 }], []⟩ 1 (textLines s)
    = result at sound counted
  obtain ⟨⟨chain, definitions⟩, last⟩ := result
  dsimp only at counted ⊢
  subst counted
  obtain ⟨laid, -, earlier⟩ := sound
  rw [Nat.add_comm] at laid earlier
  split
  · exact Nat.le_add_left 1 _
  · rename_i document inner
    let spine : Spine := ⟨document, [], inner, definitions⟩
    have closed : Laid _ _ (spine.closeInner (textLines s).length).chain :=
      Spine.laid_closeInner laid (fun block mem => Nat.le_of_lt_succ (earlier block mem))
        (Nat.lt_succ_self _) (Nat.le_refl _)
    exact (closed.sound _ List.mem_cons_self).inside

/-- Blocks lie on a number of lines, in their order, and share none of them. -/
structure InOrder (count : Nat) (blocks : List Placed) : Prop where
  placed : ∀ block ∈ blocks, 1 ≤ block.first ∧ block.first ≤ block.last ∧ block.last ≤ count
  apart : blocks.Pairwise fun a b => a.last < b.first

namespace InOrder

theorem sublist {count : Nat} {blocks more : List Placed} (order : InOrder count more)
    (sub : blocks.Sublist more) : InOrder count blocks :=
  ⟨fun block mem => order.placed block (sub.subset mem), order.apart.sublist sub⟩

theorem mono {a b : Nat} {blocks : List Placed} (order : InOrder a blocks) (le : a ≤ b) :
    InOrder b blocks :=
  ⟨fun block mem => (order.placed block mem).imp_right (.imp_right (Nat.le_trans · le)),
    order.apart⟩

/-- Every block begins where the first one does or later. -/
theorem first_le {count : Nat} {blocks : List Placed} {first block : Placed}
    (order : InOrder count blocks) (head : blocks.head? = some first) (mem : block ∈ blocks) :
    first.first ≤ block.first := by
  obtain ⟨more, rfl⟩ := List.head?_eq_some_iff.1 head
  rcases List.mem_cons.1 mem with rfl | later
  · exact Nat.le_refl _
  · have behind := (List.pairwise_cons.1 order.apart).1 block later
    exact Nat.le_trans (order.placed first List.mem_cons_self).2.1 (Nat.le_of_lt behind)

/-- Every block ends where the last one does or earlier. -/
theorem le_last {count : Nat} {blocks : List Placed} {last block : Placed}
    (order : InOrder count blocks) (isLast : blocks.getLast? = some last) (mem : block ∈ blocks) :
    block.last ≤ last.last := by
  obtain ⟨more, rfl⟩ := List.getLast?_eq_some_iff.1 isLast
  rcases List.mem_append.1 mem with earlier | here
  · have before := (List.pairwise_append.1 order.apart).2.2 block earlier last
      (List.mem_singleton_self last)
    exact Nat.le_trans (Nat.le_of_lt before)
      (order.placed last (List.mem_append_right _ (List.mem_singleton_self last))).2.1
  · exact Nat.le_of_eq (congrArg Placed.last (List.mem_singleton.1 here))

end InOrder

/-- The top level blocks of a text lie on its lines, in their order, and share none. -/
theorem inOrder_parse (extensions : Extensions) (s : List Char) :
    InOrder (textLines s).length (parse extensions s) := by
  obtain ⟨placed, apart⟩ := (stacked_readDrafts extensions.tables s).ordered
  have lines (setting : Setting) (draft : Draft) :
      (draft.toPlaced extensions.tasks setting).first = draft.first ∧
        (draft.toPlaced extensions.tasks setting).last = draft.last := by
    cases draft
    exact ⟨rfl, rfl⟩
  rw [parse]
  refine ⟨fun block mem => ?_, ?_⟩
  · obtain ⟨draft, isDraft, rfl⟩ := List.mem_map.1 (List.mem_reverse.1 mem)
    rw [(lines _ draft).1, (lines _ draft).2]
    obtain ⟨begins, order, before⟩ := placed draft isDraft
    exact ⟨begins, order, Nat.le_of_lt_succ before⟩
  · rw [List.pairwise_reverse, List.pairwise_map]
    refine apart.imp fun {later earlier} behind => ?_
    rwa [(lines _ _).1, (lines _ _).2]

end Markdown

end UiMarkdown
