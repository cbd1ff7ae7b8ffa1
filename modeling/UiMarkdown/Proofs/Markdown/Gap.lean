import UiMarkdown.Proofs.Markdown.Nesting
import UiMarkdown.Proofs.Text.Trim

/-!
# Blank lines before fences

A fence starts a block of code whatever the line before it is, if it is not
itself taken as text.  So a blank line in front of a fence changes no block where
it ends at most blocks that the fence ends as well, and where no code takes it as
a line of its own.
-/

namespace UiMarkdown

namespace Markdown

/-! ## Blank lines -/

/-- A line feed more does not change the text of an indented block. -/
theorem indentedText_append_feed (content : List Char) :
    indentedText (content ++ ['\n']) = indentedText content := by
  have stops (s : List Char) :
      (s ++ ['\n']).takeWhile (· != '\n') = s.takeWhile (· != '\n') := by
    induction s with
    | nil => rfl
    | cons c s ih => rw [List.cons_append, List.takeWhile_cons, List.takeWhile_cons, ih]
  obtain ⟨ending, content_eq, -⟩ :=
    Text.exists_append_dropEnd (fun c => Text.isSpaceOrTab c || c == '\n') content
  have shorter : (Text.dropEnd (fun c => Text.isSpaceOrTab c || c == '\n') content).length ≤
      content.length := by
    conv_rhs => rw [content_eq, List.length_append]
    exact Nat.le_add_right _ _
  rw [indentedText, indentedText, Text.dropEnd_append (by rfl)]
  rw [List.drop_append_of_le_length shorter, stops]

structure Line.Spent (line : Line) : Prop where
  left : line.left = []
  inTab : line.inTab = false

namespace Line.Spent

variable {line : Line}

theorem isBlank (spent : line.Spent) : line.isBlank = true := by
  rw [Line.isBlank, Line.body, spent.left]
  rfl

theorem text (spent : line.Spent) : line.text = [] := by
  rw [Line.text, spent.inTab, if_neg Bool.false_ne_true, spent.left]

theorem skipColumns (spent : line.Spent) (count : Nat) : (line.skipColumns count).Spent := by
  obtain ⟨left, column, inTab⟩ := line
  obtain ⟨rfl, rfl⟩ := spent
  cases count <;> exact ⟨rfl, rfl⟩

theorem skipGap (spent : line.Spent) : line.skipGap = line := by
  rw [Line.skipGap, Line.gap, spent.left]
  rfl

end Line.Spent

/-- What is left of a blank line where it goes on with a block. -/
theorem spent_of_continued {block : OpenBlock} {hasInside : Bool} {line rest : Line}
    (spent : line.Spent) (continued : block.continuation hasInside line = .continued rest) :
    rest.Spent := by
  have noMark : ¬ (line.indent ≤ 3 && line.body.head? == some '>') = true := by
    rw [Line.body_of_isBlank spent.isBlank, List.head?_nil]
    simp
  unfold OpenBlock.continuation at continued
  split at continued
  all_goals
    repeat' split at continued
    all_goals cases continued
  all_goals first
    | exact spent
    | exact spent.skipColumns _
    | exact spent.skipGap.symm ▸ spent
    | exact absurd ‹_› noMark

def OpenShape.isFenced : OpenShape → Bool
  | .fenced _ _ _ _ => true
  | _ => false

namespace OpenBlock

def takeBlank (block : OpenBlock) : OpenBlock :=
  match block.shape with
  | .fenced _ _ _ _ | .indented _ => block.append ['\n']
  | _ => block

theorem takeBlank_eq_self {block : OpenBlock} (noFence : block.shape.isFenced = false)
    (deep : ∀ content, block.shape ≠ .indented content) : block.takeBlank = block := by
  rw [takeBlank]
  cases isShape : block.shape with
  | fenced =>
      rw [isShape] at noFence
      cases noFence
  | indented content => exact absurd isShape (deep content)
  | _ => rfl

theorem isLiteral_of_holds {block : OpenBlock} {isItem : Bool}
    (holds : block.holds isItem = true) : block.isLiteral = false := by
  rw [OpenBlock.holds] at holds
  rw [isLiteral]
  cases isShape : block.shape with
  | fenced | indented | html =>
      rw [isShape] at holds
      cases holds
  | _ => rfl

theorem takeBlank_of_holds {block : OpenBlock} {isItem : Bool}
    (holds : block.holds isItem = true) : block.takeBlank = block := by
  have noText := isLiteral_of_holds holds
  rw [isLiteral] at noText
  refine takeBlank_eq_self ?_ fun content indented => ?_
  · cases isShape : block.shape with
    | fenced =>
        rw [isShape] at noText
        cases noText
    | _ => rfl
  · rw [indented] at noText
    cases noText

end OpenBlock

namespace Spine

theorem startAll_of_isBlank (tables : Bool) (number depth : Nat) (spine : Spine) {line : Line}
    (blank : line.isBlank = true) : startAll tables number spine line depth = (spine, line) := by
  have table : spine.readTable line = (spine, line) := by
    rw [readTable]
    split
    · rw [Line.body_of_isBlank blank, if_pos]
      rw [Bool.or_eq_true]
      exact .inr (by decide)
    · rw [if_pos blank]
    · rfl
  rw [startAll, start?_of_isBlank spine blank, table]
  dsimp only
  split
  · rfl
  · split <;> rfl

/-- A blank line ends the blocks that it does not go on with, and may add to the last one. -/
theorem bare_finish_spent (tables : Bool) (number : Nat) (spine : Spine) {line : Line}
    (spent : line.Spent) :
    (spine.finish tables number line false).bare =
      bare { spine.closeInner 0 with container := (spine.closeInner 0).container.takeBlank } := by
  have noLazy (spine : Spine) : spine.lazyText? line = none := by
    rw [lazyText?, spent.isBlank]
    split
    · rw [Bool.not_true, Bool.and_false, if_neg Bool.false_ne_true]
    · rfl
  rw [finish, if_neg Bool.false_ne_true, startAll_of_isBlank _ _ _ _ spent.isBlank]
  dsimp only
  rw [noLazy, Option.getD_none, bare_takeText, bare_noteBlank, ← bare_takeText _ 0, takeText,
    Nat.zero_sub, spent.text, Line.body_of_isBlank spent.isBlank, spent.isBlank]
  generalize spine.closeInner 0 = spine
  have stays (text : List Char) (same : (spine.container.append text).bare = spine.container.bare) :
      bare { spine with container := spine.container.append text } = spine.bare := by
    rw [bare, bare, same]
  dsimp only [OpenBlock.takeBlank]
  cases isShape : spine.container.shape with
  | fenced | indented => rfl
  | heading level content =>
      refine stays _ ?_
      rw [OpenBlock.append, isShape]
      dsimp only
      rw [show content ++ headingText [] = content from List.append_nil _, ← isShape]
  | html kind source =>
      have appended := stays ([] ++ ['\n'])
        (by simp only [OpenBlock.append, OpenBlock.bare, isShape, OpenShape.bare])
      have goesOn : kind.endsAt [] = false := by cases kind <;> rfl
      dsimp only
      rw [goesOn]
      split
      · exact appended
      · exact appended
  | _ => rfl

end Spine

/-! ## Fences -/

/-- Whether a block is one that a blank line and a fence alike put an end to. -/
def OpenShape.yields : OpenShape → Bool
  | .quote | .paragraph _ _ | .heading _ _ | .table _ _ => true
  | _ => false

/-- At most three spaces are left of a line before the fence that it starts with. -/
def Line.StartsFence (line : Line) : Prop :=
  line.inTab = false ∧ ∃ spaces body, spaces ≤ 3 ∧
    line.left = List.replicate spaces ' ' ++ body ∧ (fenceStart? body).isSome = true

theorem mark_of_fenceStart? {s : List Char} (found : (fenceStart? s).isSome = true) :
    ∃ c rest, s = c :: rest ∧ (c = '~' ∨ c = '\x60') := by
  unfold fenceStart? at found
  split at found
  · cases found
  · rename_i c rest
    refine ⟨c, rest, rfl, ?_⟩
    dsimp only at found
    split at found
    · cases found
    · split at found
      · rename_i isMark
        rw [Bool.or_eq_true, Bool.and_eq_true, beq_iff_eq, beq_iff_eq] at isMark
        exact isMark.imp_right And.left
      · cases found

theorem fenceStart?_replicate_append {c : Char} {size : Nat} {info : List Char} (long : 3 ≤ size)
    (isMark : c = '\x60' ∧ '\x60' ∉ info ∨ c = '~') :
    fenceStart? (List.replicate size c ++ info) =
      some (c, size + (info.takeWhile (· == c)).length) := by
  have run : ((List.replicate size c ++ info).takeWhile (· == c)).length =
      size + (info.takeWhile (· == c)).length := by
    rw [List.takeWhile_append_of_pos, List.length_append, List.length_replicate]
    intro d mem
    rw [List.eq_of_mem_replicate mem, beq_self_eq_true]
  have left : (List.replicate size c ++ info).drop (size + (info.takeWhile (· == c)).length) =
      info.drop (info.takeWhile (· == c)).length := by
    rw [← List.drop_drop, List.drop_left' List.length_replicate]
  have mark : (c == '~' || c == '\x60' &&
      !(info.drop (info.takeWhile (· == c)).length).contains c) = true := by
    rcases isMark with ⟨rfl, absent⟩ | rfl
    · have gone : (info.drop (info.takeWhile (· == '\x60')).length).contains '\x60' = false := by
        rw [Bool.eq_false_iff, ne_eq, List.contains_iff_mem]
        exact fun mem => absent (List.mem_of_mem_drop mem)
      rw [gone]
      rfl
    · rfl
  obtain ⟨n, rfl⟩ : ∃ n, size = n + 1 := ⟨size - 1, by omega⟩
  rw [List.replicate_succ, List.cons_append] at run left ⊢
  unfold fenceStart?
  dsimp only
  rw [run, left, if_neg (by omega), if_pos mark]

theorem blankWidth_replicate (spaces column : Nat) {s : List Char}
    (solid : ∀ c ∈ s.head?, Text.isSpaceOrTab c = false) :
    blankWidth column (List.replicate spaces ' ' ++ s) = spaces := by
  induction spaces generalizing column with
  | zero =>
      cases s with
      | nil => rfl
      | cons c s =>
          have solid := solid c rfl
          rw [Text.isSpaceOrTab, Bool.or_eq_false_iff] at solid
          rw [List.replicate_zero, List.nil_append, blankWidth, solid.1, solid.2,
            if_neg Bool.false_ne_true, if_neg Bool.false_ne_true]
  | succ spaces ih =>
      rw [List.replicate_succ, List.cons_append, blankWidth, if_pos (beq_self_eq_true _), ih,
        Nat.add_comm]

namespace Line.StartsFence

variable {line : Line}

theorem exists_body (fence : line.StartsFence) :
    ∃ spaces, spaces ≤ 3 ∧ line.left = List.replicate spaces ' ' ++ line.body ∧
      line.indent = spaces ∧ (fenceStart? line.body).isSome = true := by
  obtain ⟨-, spaces, body, few, left, found⟩ := fence
  obtain ⟨c, rest, rfl, isMark⟩ := mark_of_fenceStart? found
  have solid : Text.isSpaceOrTab c = false := by rcases isMark with rfl | rfl <;> rfl
  have isBody : line.body = c :: rest := by
    rw [Line.body, left, List.dropWhile_append_of_pos, List.dropWhile_cons_of_neg]
    · rw [solid]
      exact Bool.false_ne_true
    · intro d mem
      rw [List.eq_of_mem_replicate mem]
      rfl
  refine ⟨spaces, few, by rw [isBody, left], ?_, by rw [isBody]; exact found⟩
  rw [Line.indent, left, blankWidth_replicate]
  rintro d isFirst
  cases isFirst
  exact solid

theorem skipColumns (fence : line.StartsFence) {count : Nat} (few : count ≤ line.indent) :
    (line.skipColumns count).StartsFence := by
  have inTab := fence.1
  obtain ⟨spaces, three, left, indent, found⟩ := fence.exists_body
  rw [indent] at few
  have skipped (count spaces column : Nat) (few : count ≤ spaces) :
      Line.skipColumns.go count (List.replicate spaces ' ' ++ line.body) column false =
        ⟨List.replicate (spaces - count) ' ' ++ line.body, column + count, false⟩ := by
    induction count generalizing spaces column with
    | zero => rw [Line.skipColumns.go]; rfl
    | succ count ih =>
        obtain ⟨spaces, rfl⟩ : ∃ n, spaces = n + 1 := ⟨spaces - 1, by omega⟩
        rw [List.replicate_succ, List.cons_append, Line.skipColumns.go, if_neg (by decide),
          ih _ _ (by omega)]
        rw [Nat.add_sub_add_right, Nat.add_assoc, Nat.add_comm 1 count]
  rw [Line.skipColumns, left, inTab, skipped _ _ _ few]
  exact ⟨rfl, spaces - count, line.body, by omega, rfl, found⟩

theorem isBlank (fence : line.StartsFence) : line.isBlank = false := by
  obtain ⟨-, -, -, -, found⟩ := fence.exists_body
  obtain ⟨c, rest, isBody, -⟩ := mark_of_fenceStart? found
  rw [Line.isBlank, isBody]
  rfl

theorem head?_body (fence : line.StartsFence) : (line.body.head? == some '>') = false := by
  obtain ⟨-, -, -, -, found⟩ := fence.exists_body
  obtain ⟨c, rest, isBody, isMark⟩ := mark_of_fenceStart? found
  rw [isBody, List.head?_cons]
  rcases isMark with rfl | rfl <;> decide

theorem indent_le (fence : line.StartsFence) : line.indent ≤ 3 := by
  obtain ⟨spaces, few, -, indent, -⟩ := fence.exists_body
  exact indent.trans_le few

/-- A fence goes on with no quotation, no heading and no indented block. -/
theorem of_continued (fence : line.StartsFence) {block : OpenBlock} {hasInside : Bool}
    {rest : Line} (continued : block.continuation hasInside line = .continued rest) :
    rest.StartsFence ∧ (∀ content, block.shape ≠ .indented content) ∧
      (block.shape.yields = true → rest = line ∧ ∀ isItem, block.holds isItem = false) := by
  have shallow : ¬ 4 ≤ line.indent := Nat.not_le_of_lt (Nat.lt_succ_of_le fence.indent_le)
  rw [OpenBlock.continuation, fence.isBlank, fence.head?_body, Bool.and_false, Bool.false_and]
    at continued
  unfold OpenBlock.holds
  cases isShape : block.shape with
  | document | list | rule | html =>
      rw [isShape] at continued
      cases continued
      exact ⟨fence, fun _ same => (by cases same), fun yields => (by cases yields)⟩
  | quote | heading =>
      rw [isShape] at continued
      cases continued
  | item indent =>
      rw [isShape] at continued
      dsimp only at continued
      split at continued
      · rename_i deep
        cases continued
        exact ⟨fence.skipColumns deep, fun _ same => (by cases same),
          fun yields => (by cases yields)⟩
      · cases continued
  | indented content =>
      rw [isShape] at continued
      dsimp only at continued
      rw [if_neg shallow] at continued
      cases continued
  | fenced mark length indent content =>
      rw [isShape] at continued
      dsimp only at continued
      split at continued
      · cases continued
      · cases continued
        exact ⟨fence.skipColumns (Nat.min_le_right _ _), fun _ same => (by cases same),
          fun yields => (by cases yields)⟩
  | paragraph =>
      rw [isShape] at continued
      cases continued
      exact ⟨fence, fun _ same => (by cases same), fun _ => ⟨rfl, fun _ => rfl⟩⟩
  | table =>
      rw [isShape] at continued
      dsimp only at continued
      split at continued
      · cases continued
      · cases continued
        exact ⟨fence, fun _ same => (by cases same), fun _ => ⟨rfl, fun _ => rfl⟩⟩

end Line.StartsFence

namespace Spine

theorem startAll_of_fenceStart? (tables : Bool) (depth : Nat) {line : Line}
    (fence : line.StartsFence) {mark : Char} {length : Nat}
    (isFence : fenceStart? line.body = some (mark, length)) (spine : Spine) (number : Nat)
    (notLiteral : spine.container.isLiteral = false) :
    startAll tables number spine line depth =
      (spine.openBlock (.fenced mark length line.gap []) number,
        line.skip (line.gap + length)) := by
  obtain ⟨c, rest, isBody, isMark⟩ := mark_of_fenceStart? (Option.isSome_of_eq_some isFence)
  have start : spine.start? number depth line =
      some (spine.openBlock (.fenced mark length line.gap []) number,
        line.skip (line.gap + length)) := by
    have noHeading : headingStart? line.body = none := by
      rw [isBody]
      rcases isMark with rfl | rfl <;> rfl
    unfold start?
    dsimp only
    rw [if_pos (Nat.lt_succ_of_le fence.indent_le), fence.head?_body,
      if_neg Bool.false_ne_true, noHeading, isFence]
  rw [startAll, notLiteral, if_neg Bool.false_ne_true, start]
  exact if_pos (by rw [openBlock_eq]; rfl)

theorem startAll_of_startsFence (tables : Bool) (depth : Nat) {line : Line}
    (fence : line.StartsFence) :
    ∃ shape : OpenShape, shape.isItem = false ∧ ∃ rest, ∀ (spine : Spine) (number : Nat),
      spine.container.isLiteral = false →
        startAll tables number spine line depth = (spine.openBlock shape number, rest) := by
  obtain ⟨-, -, -, -, found⟩ := fence.exists_body
  obtain ⟨⟨mark, length⟩, isFence⟩ := Option.isSome_iff_exists.1 found
  exact ⟨.fenced mark length line.gap [], rfl, line.skip (line.gap + length),
    fun spine number => startAll_of_fenceStart? tables depth fence isFence spine number⟩

/-- A chain is as ready for a block as the one that the line leaves of it. -/
theorem bare_makeRoom_closeInner (spine : Spine) (isItem : Bool) (m n : Nat) :
    (spine.makeRoom isItem m).bare = ((spine.closeInner 0).makeRoom isItem n).bare := by
  have holds : (spine.closeInner 0).bare.container.holds isItem =
      spine.bare.container.holds isItem := by
    rw [bare_closeInner, closeInner, OpenBlock.holds_push?]
  have twice : (spine.closeInner 0).bare.closeInner 0 = spine.bare.closeInner 0 := by
    rw [bare_closeInner]
    rfl
  rw [bare_makeRoom, bare_makeRoom, makeRoom, makeRoom, holds, twice, isTight_bare_push?,
    isTight_bare_push?]

theorem bare_openBlock_congr {a b : Spine} (same : (a.closeInner 0).bare = (b.closeInner 0).bare)
    (shape : OpenShape) (m n : Nat) :
    (a.openBlock shape m).bare = (b.openBlock shape n).bare := by
  have room : (a.makeRoom shape.isItem (m - 1)).bare = (b.makeRoom shape.isItem (n - 1)).bare := by
    rw [bare_makeRoom_closeInner a _ _ 0, bare_makeRoom_closeInner b _ _ 0, bare_makeRoom, same,
      ← bare_makeRoom]
  rw [openBlock_eq, openBlock_eq]
  have container := congrArg Spine.container room
  have around := congrArg Spine.around room
  have inner := congrArg Spine.inner room
  have definitions := congrArg Spine.definitions room
  simp only [bare] at container around inner definitions ⊢
  rw [List.map_cons, List.map_cons, container, around, inner, definitions]
  rfl

/-- A block that holds nothing gives way to another one like a block that the line ends. -/
theorem openBlock_of_leaf {leaf outer : OpenBlock} (noBlock : leaf.holds false = false)
    (holds : outer.holds false = true) (around : List OpenBlock) (definitions : Definitions)
    {shape : OpenShape} (noItem : shape.isItem = false) (number : Nat) :
    openBlock ⟨leaf, outer :: around, [], definitions⟩ shape number =
      openBlock ⟨outer, around, [leaf], definitions⟩ shape number := by
  have room (last : Nat) : makeRoom ⟨leaf, outer :: around, [], definitions⟩ false last =
      makeRoom ⟨outer, around, [leaf], definitions⟩ false last := by
    rw [makeRoom, makeRoom]
    dsimp only
    rw [noBlock, if_neg Bool.false_ne_true, if_pos holds]
    rfl
  rw [openBlock_eq, openBlock_eq, noItem, room]

end Spine

/-! ## Chains that a blank line goes into -/

theorem not_yields_of_closed {block : OpenBlock} {hasInside : Bool} {line : Line}
    (closed : block.continuation hasInside line = .closed) : ¬ block.shape.yields = true := by
  rw [OpenBlock.continuation] at closed
  cases isShape : block.shape with
  | fenced => exact Bool.false_ne_true
  | _ =>
      rw [isShape] at closed
      dsimp only at closed
      repeat' split at closed
      all_goals cases closed

/-- Whether a blank line at some place is no line of code and ends at most what a fence ends. -/
def Spine.isClear (spine : Spine) : Bool :=
  !spine.container.shape.isFenced && (spine.inner.head?).all fun block => block.shape.yields

/--
What a blank line leaves of a chain of open blocks: it adds at most a line to
the last block that it goes on with, or closes the blocks inside it.
-/
inductive Spaced (definitions : Definitions) :
    List OpenBlock → List OpenBlock → Definitions → Prop
  | stay {block : OpenBlock} (noCode : block.shape.isFenced = false) :
      Spaced definitions [block] [block.takeBlank] definitions
  | close {block inner : OpenBlock} {more : List OpenBlock} (yields : inner.shape.yields = true) :
      Spaced definitions (block :: inner :: more)
        [block.push? (closeChain definitions 0 (inner :: more)).1]
        (closeChain definitions 0 (inner :: more)).2
  | inside {block : OpenBlock} {chain chain' : List OpenBlock} {definitions' : Definitions}
      (later : Spaced definitions chain chain' definitions') :
      Spaced definitions (block :: chain) (block :: chain') definitions'

def Spine.progress (spine : Spine) : Progress :=
  ⟨spine.chain, spine.definitions⟩

theorem Spine.bare_progress (spine : Spine) : spine.progress.bare = spine.bare.progress := by
  simp [progress, Progress.bare, chain, bare]

/-- A blank line goes into the chain between blocks that it does not change. -/
theorem exists_spaced (tables : Bool) (number : Nat) {definitions : Definitions}
    {container : OpenBlock} {around inner : List OpenBlock} {line : Line} (spent : line.Spent)
    (isChain : (container :: inner).IsChain OpenBlock.MayHold)
    (clear : (follow definitions container around inner line).1.isClear = true) :
    ∃ chain' definitions', Spaced definitions (container :: inner) chain' definitions' ∧
      let (spine, rest, closed) := follow definitions container around inner line
      (spine.finish tables number rest closed).progress.bare =
        Progress.bare ⟨around.reverse ++ chain', definitions'⟩ := by
  induction inner generalizing container around line with
  | nil =>
      rw [follow] at clear ⊢
      rw [Spine.isClear, Bool.and_eq_true, Bool.not_eq_true'] at clear
      refine ⟨_, _, .stay clear.1, ?_⟩
      dsimp only
      rw [Spine.bare_progress, Spine.bare_finish_spent _ _ _ spent, ← Spine.bare_progress]
      rfl
  | cons block inner ih =>
      rw [follow] at clear ⊢
      cases step : block.continuation (!block.inside.isEmpty || !inner.isEmpty) line with
      | continued rest =>
          rw [step] at clear
          obtain ⟨chain', definitions', spaced, left⟩ :=
            ih (spent_of_continued spent step) isChain.of_cons clear
          refine ⟨_, _, .inside spaced, ?_⟩
          rw [List.reverse_cons, List.append_assoc] at left
          exact left
      | ended =>
          rw [step, Spine.isClear, Bool.and_eq_true] at clear
          refine ⟨_, _, .close clear.2, ?_⟩
          have holds : (container.push? (closeChain definitions 0 (block :: inner)).1).holds
              block.shape.isItem = true := by
            rw [OpenBlock.holds_push?]
            exact (List.isChain_cons_cons.1 isChain).1
          dsimp only
          rw [Spine.bare_progress, Spine.bare_finish_spent _ _ _ spent, ← Spine.bare_progress,
            Spine.closeInner]
          dsimp only
          rw [OpenBlock.takeBlank_of_holds holds]
          rfl
      | closed =>
          rw [step, Spine.isClear, Bool.and_eq_true] at clear
          exact absurd clear.2 (not_yields_of_closed step)

/-! ## The line of a fence behind a blank line -/

/-- Whether a block has blocks inside counts for blank lines only. -/
theorem continuation_congr {block block' : OpenBlock} {line : Line} (text : line.isBlank = false)
    (same : block'.shape = block.shape ∨ block'.shape = block.takeBlank.shape)
    (hasInside hasInside' : Bool) :
    block'.continuation hasInside' line = block.continuation hasInside line := by
  have other : block.takeBlank.continuation hasInside line = block.continuation hasInside line := by
    rw [OpenBlock.takeBlank]
    cases isShape : block.shape with
    | fenced | indented => simp only [OpenBlock.continuation, OpenBlock.append, isShape]
    | _ => rfl
  have shaped {a b : OpenBlock} (same : a.shape = b.shape) :
      a.continuation hasInside' line = b.continuation hasInside line := by
    rw [OpenBlock.continuation, OpenBlock.continuation, same, text, Bool.false_and, Bool.false_and]
  rcases same with same | same
  · exact shaped same
  · exact (shaped same).trans other

namespace Spaced

variable {definitions definitions' : Definitions}

/-- Both chains begin with blocks that any line of text takes alike. -/
theorem exists_cons {chain chain' : List OpenBlock}
    (spaced : Spaced definitions chain chain' definitions') :
    ∃ block inner block' inner', chain = block :: inner ∧ chain' = block' :: inner' ∧
      (block'.shape = block.shape ∨ block'.shape = block.takeBlank.shape) := by
  cases spaced with
  | stay => exact ⟨_, _, _, _, rfl, rfl, .inr rfl⟩
  | close => exact ⟨_, _, _, _, rfl, rfl, .inl (OpenBlock.shape_push? _ _)⟩
  | inside => exact ⟨_, _, _, _, rfl, rfl, .inl rfl⟩

/-- Both chains close to the same draft. -/
theorem bare_closeChain {chain chain' : List OpenBlock}
    (spaced : Spaced definitions chain chain' definitions') :
    closeChain definitions 0 (chain.map OpenBlock.bare) =
      closeChain definitions' 0 (chain'.map OpenBlock.bare) := by
  induction spaced with
  | @stay block noCode =>
      rw [OpenBlock.takeBlank]
      cases isShape : block.shape with
      | fenced =>
          rw [isShape] at noCode
          cases noCode
      | indented content =>
          simp only [List.map_singleton, closeChain, OpenBlock.push?, OpenBlock.close,
            OpenBlock.toDraft, OpenBlock.append, OpenBlock.bare, OpenShape.bare, isShape,
            indentedText_append_feed]
      | _ => rfl
  | @close block inner more yields =>
      rw [List.map_cons, closeChain, ← Markdown.bare_closeChain definitions 0 (inner :: more)]
      rw [List.map_singleton, closeChain, closeChain, OpenBlock.bare_push?]
      rfl
  | inside later ih =>
      rw [List.map_cons, List.map_cons, closeChain, closeChain, ih]

end Spaced

namespace Spine

/-- A fence in places that the line leaves alike starts the same blocks. -/
theorem bare_finish_of_startsFence (tables : Bool) {a b : Spine} (m n : Nat) {line : Line}
    (fence : line.StartsFence) (aText : a.container.isLiteral = false)
    (bText : b.container.isLiteral = false)
    (same : ∀ shape : OpenShape, shape.isItem = false →
      (a.openBlock shape m).bare = (b.openBlock shape n).bare) :
    (a.finish tables m line false).bare = (b.finish tables n line false).bare := by
  obtain ⟨shape, noItem, rest, started⟩ := startAll_of_startsFence tables 1 fence
  refine bare_finish_congr ?_
  rw [started a m aText, started b n bText, Prod.map_apply, Prod.map_apply, same shape noItem]

end Spine

theorem isLiteral_of_yields {block : OpenBlock} (yields : block.shape.yields = true) :
    block.isLiteral = false := by
  rw [OpenBlock.isLiteral]
  cases isShape : block.shape with
  | fenced | indented | html =>
      rw [isShape] at yields
      cases yields
  | _ => rfl

/-- Chains that close to the same draft leave the same of a place. -/
theorem bare_closeInner_congr {definitions definitions' : Definitions}
    {inner inner' : List OpenBlock}
    (closed : closeChain definitions 0 (inner.map OpenBlock.bare) =
      closeChain definitions' 0 (inner'.map OpenBlock.bare))
    (container : OpenBlock) (around : List OpenBlock) (m n : Nat) :
    (Spine.closeInner ⟨container, around, inner, definitions⟩ m).bare =
      (Spine.closeInner ⟨container, around, inner', definitions'⟩ n).bare := by
  rw [Spine.bare_closeInner, Spine.bare_closeInner, Spine.closeInner, Spine.closeInner, Spine.bare,
    Spine.bare]
  dsimp only
  rw [closed]

/-- A fence puts an end to a block inside, as a blank line before it does. -/
theorem bare_finish_of_yields (tables : Bool) (m n : Nat) {definitions : Definitions}
    {container inner : OpenBlock} {around more : List OpenBlock} {line : Line}
    (yields : inner.shape.yields = true) (fence : line.StartsFence)
    (isChain : (container :: inner :: more).IsChain OpenBlock.MayHold) :
    let a := follow definitions container around (inner :: more) line
    let closed := closeChain definitions 0 (inner :: more)
    (a.1.finish tables m a.2.1 a.2.2).bare =
      (Spine.finish ⟨container.push? closed.1, around, [], closed.2⟩ tables n line false).bare := by
  obtain ⟨here, isChain⟩ := List.isChain_cons_cons.1 isChain
  have opened (shape : OpenShape) :
      (Spine.openBlock ⟨container, around, inner :: more, definitions⟩ shape m).bare =
        (Spine.openBlock ⟨container.push? (closeChain definitions 0 (inner :: more)).1, around, [],
          (closeChain definitions 0 (inner :: more)).2⟩ shape n).bare := by
    apply Spine.bare_openBlock_congr
    rfl
  have literal : (container.push? (closeChain definitions 0 (inner :: more)).1).isLiteral =
      false := by
    rw [OpenBlock.isLiteral, OpenBlock.shape_push?]
    exact OpenBlock.isLiteral_of_holds here
  dsimp only
  rw [follow]
  cases step : inner.continuation (!inner.inside.isEmpty || !more.isEmpty) line with
  | continued rest =>
      -- the line goes on with a paragraph or a table, which gives way to the fence
      obtain ⟨-, -, settled⟩ := fence.of_continued step
      obtain ⟨rfl, leaf⟩ := settled yields
      have innermost : more = [] := by
        cases more with
        | nil => rfl
        | cons next more =>
            cases (leaf next.shape.isItem).symm.trans (List.isChain_cons_cons.1 isChain).1
      subst innermost
      have holds : container.holds false = true := OpenBlock.isItem_eq_false (leaf false) ▸ here
      refine Spine.bare_finish_of_startsFence tables m n fence (isLiteral_of_yields yields) literal
        fun shape noItem => ?_
      rw [← opened shape]
      exact congrArg Spine.bare (Spine.openBlock_of_leaf (leaf false) holds _ _ noItem m)
  | ended =>
      exact Spine.bare_finish_of_startsFence tables m n fence (OpenBlock.isLiteral_of_holds here)
        literal fun shape _ => opened shape
  | closed => exact absurd yields (not_yields_of_closed step)

/--
A fence leaves the same of a chain as of what a blank line before it has left of
the chain.
-/
theorem Spaced.bare_finish {definitions definitions' : Definitions}
    {block block' : OpenBlock} {inner inner' : List OpenBlock}
    (spaced : Spaced definitions (block :: inner) (block' :: inner') definitions')
    (tables : Bool) (m n : Nat) (around : List OpenBlock) {line : Line} (fence : line.StartsFence)
    (isChain : (block :: inner).IsChain OpenBlock.MayHold)
    (deep : ∀ content, block.shape ≠ .indented content) :
    let a := follow definitions block around inner line
    let b := follow definitions' block' around inner' line
    (a.1.finish tables m a.2.1 a.2.2).bare = (b.1.finish tables n b.2.1 b.2.2).bare := by
  generalize isLeft : block :: inner = chain at spaced isChain
  generalize isRight : block' :: inner' = chain' at spaced
  induction spaced generalizing block block' inner inner' around line with
  | @stay container noCode =>
      cases isLeft
      cases isRight
      rw [OpenBlock.takeBlank_eq_self noCode deep]
      dsimp only
      rw [Spine.bare_finish, Spine.bare_finish _ _ n]
  | close yields =>
      cases isLeft
      cases isRight
      exact bare_finish_of_yields tables m n yields fence isChain
  | @inside container chain chain' definitions' later ih =>
      cases isLeft
      cases isRight
      obtain ⟨b, more, b', more', rfl, rfl, same⟩ := later.exists_cons
      obtain ⟨here, isChain⟩ := List.isChain_cons_cons.1 isChain
      have literal : container.isLiteral = false := OpenBlock.isLiteral_of_holds here
      have left := bare_closeInner_congr later.bare_closeChain container around
      dsimp only
      rw [follow, follow,
        continuation_congr fence.isBlank same (!b.inside.isEmpty || !more.isEmpty)]
      cases step : b.continuation (!b.inside.isEmpty || !more.isEmpty) line with
      | continued rest =>
          obtain ⟨fence, deep, -⟩ := fence.of_continued step
          exact ih (container :: around) fence deep rfl isChain rfl
      | ended =>
          exact Spine.bare_finish_of_startsFence tables m n fence literal literal
            fun shape _ => Spine.bare_openBlock_congr (left 0 0) shape m n
      | closed => exact left m n

/-! ## The blank line and the fence -/

/-- Whether a blank line may go into a text where it has been read so far. -/
def Progress.isClear (progress : Progress) : Bool :=
  match progress.chain with
  | [] => true
  | document :: inner =>
      (follow progress.definitions document [] inner { left := [] }).1.isClear

/-- A blank line before a fence changes no block where it may go into the text. -/
theorem bare_readLine_readLine_of_isClear {progress : Progress} (nested : Nested progress.chain)
    (clear : progress.isClear = true) (tables : Bool) {text : List Char}
    (fence : Line.StartsFence { left := text }) (k m n : Nat) :
    ((progress.readLine tables k []).readLine tables m text).bare =
      (progress.readLine tables n text).bare := by
  obtain ⟨chain, definitions⟩ := progress
  cases chain with
  | nil => rfl
  | cons document inner =>
      obtain ⟨chain', definitions', spaced, left⟩ :=
        exists_spaced tables k ⟨rfl, rfl⟩ nested.isChain clear
      obtain ⟨_, _, document', inner', isChain, rfl, -⟩ := spaced.exists_cons
      cases isChain
      have deep (content : List Char) : document.shape ≠ .indented content := by
        intro indented
        have holds := nested.outermost document rfl
        rw [OpenBlock.holds, indented] at holds
        cases holds
      have finished := congrArg Spine.progress
        (spaced.bare_finish tables n m [] fence nested.isChain deep)
      rw [← Spine.bare_progress, ← Spine.bare_progress] at finished
      have left : (Progress.readLine tables ⟨document :: inner, definitions⟩ k []).bare =
          Progress.bare ⟨document' :: inner', definitions'⟩ := left
      rw [Progress.bare_readLine_congr tables left m m]
      exact finished.symm

end Markdown

end UiMarkdown
