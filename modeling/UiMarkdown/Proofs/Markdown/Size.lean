import Mathlib.Algebra.Group.Nat.Defs
import Mathlib.Data.List.TakeWhile
import UiMarkdown.Proofs.Markdown.Position

/-!
# Sizes of numbers

A heading starts with at most six number signs, and an item of a list with at
most nine digits.  So no text has a block with a larger number.
-/

namespace UiMarkdown

namespace Markdown

/-! ## What a line can say -/

theorem level_le_of_headingStart? {s : List Char} {level length : Nat}
    (found : headingStart? s = some (level, length)) : level ≤ 6 := by
  unfold headingStart? at found
  dsimp only at found
  split at found
  · rename_i isHeading
    cases found
    simp only [Bool.and_eq_true, decide_eq_true_eq] at isHeading
    exact isHeading.1.2
  · cases found

theorem level_le_of_underline? {s : List Char} {level : Nat} (found : underline? s = some level) :
    level ≤ 6 := by
  unfold underline? at found
  split at found
  · cases found
    decide
  · split at found
    · cases found
      decide
    · cases found

theorem foldl_digits_lt {digits : List Char} (isDigit : ∀ c ∈ digits, c.isDigit = true) (n : Nat) :
    digits.foldl (fun n c => n * 10 + (c.toNat - 48)) n < (n + 1) * 10 ^ digits.length := by
  induction digits generalizing n with
  | nil => simp
  | cons c more ih =>
      obtain ⟨here, later⟩ := List.forall_mem_cons.1 isDigit
      have small : c.toNat ≤ 57 := by
        simp only [Char.isDigit, Bool.and_eq_true, decide_eq_true_eq] at here
        exact UInt32.le_iff_toNat_le.1 here.2
      have step : n * 10 + (c.toNat - 48) + 1 ≤ (n + 1) * 10 := by omega
      calc (c :: more).foldl (fun n c => n * 10 + (c.toNat - 48)) n
          < (n * 10 + (c.toNat - 48) + 1) * 10 ^ more.length := ih later _
        _ ≤ (n + 1) * 10 * 10 ^ more.length := Nat.mul_le_mul_right _ step
        _ = (n + 1) * 10 ^ (c :: more).length := by
          rw [List.length_cons, Nat.pow_succ', Nat.mul_assoc]

theorem start_lt_of_itemStart? {inParagraph : Bool} {s : List Char} {mark : ListMark}
    {start length : Nat} (found : itemStart? inParagraph s = some (mark, start, length)) :
    start < 10 ^ 9 := by
  unfold itemStart? at found
  dsimp only at found
  split at found
  · cases found
  · split at found
    · split at found
      · cases found
        decide
      · cases found
    · split at found
      · split at found
        · cases found
          refine Nat.lt_of_lt_of_le (foldl_digits_lt (fun c mem => List.mem_takeWhile_imp mem) 0) ?_
          rw [Nat.zero_add, Nat.one_mul]
          refine Nat.pow_le_pow_right (by decide) ?_
          exact Nat.le_trans (List.takeWhile_prefix _).length_le (List.length_take_le _ _)
        · cases found
      · cases found

/-! ## Drafts and open blocks -/

/-- The level of a heading and the number of a list are as small as they can be written. -/
def Shape.Sized : Shape → Prop
  | .heading level _ => level ≤ 6
  | .list _ start _ => start < 10 ^ 9
  | _ => True

namespace Draft

mutual

/-- The numbers in a draft are as small as they can be written. -/
def Sized : Draft → Prop
  | block shape _ _ _ drafts => shape.Sized ∧ SizedAll drafts

def SizedAll : List Draft → Prop
  | [] => True
  | draft :: more => Sized draft ∧ SizedAll more

end

theorem sizedAll_iff {drafts : List Draft} : SizedAll drafts ↔ ∀ draft ∈ drafts, draft.Sized := by
  induction drafts with
  | nil => simp [SizedAll]
  | cons draft more ih => rw [SizedAll, ih, List.forall_mem_cons]

theorem Sized.setBlank {draft : Draft} (sized : draft.Sized) : draft.setBlank.Sized := by
  cases draft
  exact sized

end Draft

def OpenShape.Sized : OpenShape → Prop
  | .heading level _ => level ≤ 6
  | .list _ start => start < 10 ^ 9
  | _ => True

structure OpenBlock.Sized (block : OpenBlock) : Prop where
  shape : block.shape.Sized
  inside : Draft.SizedAll block.inside

namespace OpenBlock.Sized

variable {block : OpenBlock}

theorem push (sized : block.Sized) {draft : Draft} (added : draft.Sized) :
    (block.push draft).Sized :=
  ⟨sized.shape, added, sized.inside⟩

theorem push? (sized : block.Sized) {draft? : Option Draft}
    (added : ∀ draft ∈ draft?, draft.Sized) : (block.push? draft?).Sized := by
  cases draft? with
  | none => exact sized
  | some draft => exact sized.push (added draft rfl)

theorem append (sized : block.Sized) (text : List Char) : (block.append text).Sized := by
  refine ⟨?_, sized.inside⟩
  have shape := sized.shape
  rw [OpenBlock.append]
  cases isShape : block.shape with
  | heading level content | list mark start =>
      rw [isShape] at shape
      exact shape
  | _ => trivial

theorem toDraft (sized : block.Sized) (last : Nat) (tight : Bool) :
    (block.toDraft last tight).Sized := by
  refine ⟨?_, sized.inside⟩
  have shape := sized.shape
  cases isShape : block.shape with
  | heading level content | list mark start =>
      rw [isShape] at shape
      exact shape
  | _ => trivial

theorem close (sized : block.Sized) (definitions : Definitions) (last : Nat) (tight : Bool) :
    ∀ draft ∈ (block.close definitions last tight).1, draft.Sized := by
  intro draft closed
  rw [OpenBlock.close] at closed
  split at closed
  · dsimp only at closed
    split at closed
    · cases closed
    · cases closed
      refine toDraft ?_ last tight
      exact ⟨trivial, sized.inside⟩
  · cases closed
    exact sized.toDraft last tight

end OpenBlock.Sized

theorem sized_closeChain (definitions : Definitions) (last : Nat) {chain : List OpenBlock}
    (sized : ∀ block ∈ chain, block.Sized) :
    ∀ draft ∈ (closeChain definitions last chain).1, draft.Sized := by
  induction chain with
  | nil => exact fun draft closed => by cases closed
  | cons block inner ih =>
      obtain ⟨here, later⟩ := List.forall_mem_cons.1 sized
      exact (here.push? (ih later)).close _ _ _

/-! ## What a line does to the chain -/

namespace Spine

structure Sized (spine : Spine) : Prop where
  container : spine.container.Sized
  around : ∀ block ∈ spine.around, block.Sized
  inner : ∀ block ∈ spine.inner, block.Sized

theorem sized_chain_iff {spine : Spine} :
    (∀ block ∈ spine.chain, block.Sized) ↔ spine.Sized := by
  rw [chain, List.forall_mem_append, List.forall_mem_cons]
  simp only [List.mem_reverse]
  exact ⟨fun sized => ⟨sized.2.1, sized.1, sized.2.2⟩,
    fun sized => ⟨sized.around, sized.container, sized.inner⟩⟩

namespace Sized

variable {spine : Spine}

theorem closeInner (sized : spine.Sized) (last : Nat) : (spine.closeInner last).Sized :=
  ⟨sized.container.push? (sized_closeChain _ _ sized.inner), sized.around, List.forall_mem_nil _⟩

theorem makeRoom (sized : spine.Sized) (isItem : Bool) (last : Nat) :
    (spine.makeRoom isItem last).Sized := by
  have closed := sized.closeInner last
  rw [Spine.makeRoom]
  split
  · exact closed
  · dsimp only
    split
    · exact closed
    · rename_i outer around isAround
      obtain ⟨container, outermost, -⟩ := closed
      rw [isAround, List.forall_mem_cons] at outermost
      exact ⟨outermost.1.push? (container.close _ _ _), outermost.2, List.forall_mem_nil _⟩

theorem openBlock (sized : spine.Sized) {shape : OpenShape} {number : Nat} (small : shape.Sized) :
    (spine.openBlock shape number).Sized := by
  have room := sized.makeRoom shape.isItem (number - 1)
  rw [openBlock_eq]
  exact ⟨⟨small, trivial⟩, List.forall_mem_cons.2 ⟨room.container, room.around⟩, room.inner⟩

/-- The innermost block of those that a line continues may become another one. -/
theorem alter (sized : spine.Sized) {shape : OpenShape} {definitions : Definitions}
    (small : shape.Sized) :
    Sized { spine with container := { spine.container with shape }, definitions } :=
  ⟨⟨small, sized.container.inside⟩, sized.around, sized.inner⟩

theorem underline (sized : spine.Sized) {level : Nat} (small : level ≤ 6) (content : List Char)
    (noTable : Bool) (line : Line) : (spine.underline level content noTable line).1.Sized := by
  rw [Spine.underline]
  dsimp only
  split
  · exact sized.alter trivial
  · exact sized.alter small

theorem openItem (sized : spine.Sized) {start : Nat} (small : start < 10 ^ 9) (number : Nat)
    (mark : ListMark) (length : Nat) (line : Line) :
    (spine.openItem number mark start length line).1.Sized := by
  have isList : OpenShape.Sized (.list mark start) := small
  have item (goesOn : Bool) (indent : Nat) :
      Sized ((if goesOn then spine else spine.openBlock (.list mark start) number).openBlock
        (.item indent) number) := by
    cases goesOn with
    | true => exact sized.openBlock trivial
    | false => exact (sized.openBlock isList).openBlock trivial
  unfold Spine.openItem
  exact item _ _

theorem openTable (sized : spine.Sized) {next : Spine} {content : List Char} {line rest : Line}
    (found : spine.openTable content line = some (next, rest)) : next.Sized := by
  unfold Spine.openTable at found
  dsimp only at found
  split at found
  · cases found
  · cases found
    refine ⟨⟨trivial, trivial⟩, ?_, sized.inner⟩
    dsimp only
    have around := sized.around
    split
    · rename_i outer more isAround
      rw [isAround] at around
      split
      · exact around
      · rw [List.forall_mem_cons] at around
        exact List.forall_mem_cons.2 ⟨around.1.push ⟨trivial, trivial⟩, around.2⟩
    · exact List.forall_mem_nil _

theorem readTable (sized : spine.Sized) (line : Line) : (spine.readTable line).1.Sized := by
  rw [Spine.readTable]
  split
  · rename_i content noTable isParagraph
    split
    · exact sized
    · cases opened : spine.openTable content line with
      | none => exact sized.alter trivial
      | some found => exact sized.openTable opened
  · split
    · exact sized
    · exact sized.alter trivial
  · exact sized

theorem start? (sized : spine.Sized) {number depth : Nat} {next : Spine} {line rest : Line}
    (found : spine.start? number depth line = some (next, rest)) : next.Sized := by
  unfold Spine.start? at found
  dsimp only at found
  split at found
  · split at found
    · cases found
      exact sized.openBlock trivial
    · split at found
      · rename_i level length isHeading
        cases found
        exact sized.openBlock (level_le_of_headingStart? isHeading)
      · split at found
        · cases found
          exact sized.openBlock trivial
        · split at found
          · cases found
            exact sized.openBlock trivial
          · split at found
            · rename_i content noTable level isParagraph underlined
              have next :=
                sized.underline (level_le_of_underline? underlined) content noTable line
              rwa [Option.some.inj found] at next
            · split at found
              · cases found
                exact sized.openBlock trivial
              · split at found
                · rename_i mark start length isItem
                  split at found
                  · have next :=
                      sized.openItem (start_lt_of_itemStart? isItem) number mark length line
                    rwa [Option.some.inj found] at next
                  · cases found
                · cases found
  · split at found
    · cases found
      exact sized.openBlock trivial
    · cases found

theorem startAll (tables : Bool) (number depth : Nat) {line : Line} (sized : spine.Sized) :
    (Spine.startAll tables number spine line depth).1.Sized := by
  fun_induction Spine.startAll tables number spine line depth with
  | case1 spine line depth literal => exact sized
  | case2 spine line depth _ next rest found takes => exact sized.start? found
  | case3 spine line depth _ next rest found takes shorter ih => exact ih (sized.start? found)
  | case4 spine line depth _ next rest found => exact sized.start? found
  | case5 spine line depth => exact sized.readTable line
  | case6 spine line depth => exact sized

theorem noteBlank (sized : spine.Sized) (number : Nat) (line : Line) :
    (spine.noteBlank number line).Sized := by
  have unmarked : ∀ block ∈ spine.around.map fun block => { block with blankAfter := false },
      block.Sized :=
    List.forall_mem_map.2 fun block mem => ⟨(sized.around block mem).shape,
      (sized.around block mem).inside⟩
  obtain ⟨⟨shape, inside⟩, -, inner⟩ := sized
  unfold Spine.noteBlank
  dsimp only
  cases line.isBlank with
  | false => exact ⟨⟨shape, inside⟩, unmarked, inner⟩
  | true =>
      cases isInner : spine.inner with
      | cons block more =>
          rw [isInner, List.forall_mem_cons] at inner
          exact ⟨⟨shape, inside⟩, unmarked,
            List.forall_mem_cons.2 ⟨⟨inner.1.shape, inner.1.inside⟩, inner.2⟩⟩
      | nil =>
          cases isInside : spine.container.inside with
          | nil => exact ⟨⟨shape, trivial⟩, unmarked, List.forall_mem_nil _⟩
          | cons draft more =>
              rw [isInside] at inside
              exact ⟨⟨shape, inside.1.setBlank, inside.2⟩, unmarked, List.forall_mem_nil _⟩

/-- A block that takes text stays what it is. -/
theorem append (sized : spine.Sized) (text : List Char) :
    Sized { spine with container := spine.container.append text } :=
  ⟨sized.container.append text, sized.around, sized.inner⟩

theorem takeText (sized : spine.Sized) (number : Nat) (line : Line) :
    (spine.takeText number line).Sized := by
  have closed := sized.closeInner (number - 1)
  unfold Spine.takeText
  generalize spine.closeInner (number - 1) = spine at closed
  dsimp only
  split
  · exact closed.append _
  · exact closed.append _
  · have grown := closed.append (line.text ++ ['\n'])
    split
    · rename_i outer around isAround
      split
      · obtain ⟨container, outermost, inner⟩ := grown
        dsimp only at outermost
        rw [isAround, List.forall_mem_cons] at outermost
        exact ⟨outermost.1.push (container.toDraft number true), outermost.2, inner⟩
      · exact grown
    · exact grown
  · exact closed.append _
  · split
    · exact closed
    · exact closed.append _
  · split
    · exact closed
    · exact closed.openBlock trivial

theorem lazyText? (sized : spine.Sized) {next : Spine} {line : Line}
    (found : spine.lazyText? line = some next) : next.Sized := by
  unfold Spine.lazyText? at found
  split at found
  · rename_i block outer isInner
    split at found
    · cases found
      have inner := sized.inner
      rw [← List.reverse_reverse spine.inner, isInner] at inner
      refine ⟨sized.container, sized.around, ?_⟩
      simp only [List.mem_reverse, List.forall_mem_cons] at inner ⊢
      exact ⟨inner.1.append _, inner.2⟩
    · cases found
  · cases found

end Sized

end Spine

/-! ## Lines one after another -/

/-- A line adds no larger number. -/
theorem Progress.sized_readLine (tables : Bool) (number : Nat) (text : List Char)
    {progress : Progress} (sized : ∀ block ∈ progress.chain, block.Sized) :
    ∀ block ∈ (progress.readLine tables number text).chain, block.Sized := by
  rw [Progress.readLine]
  split
  · exact sized
  · rename_i document inner isChain
    have followed := chain_follow progress.definitions document [] inner { left := text }
    dsimp only
    generalize follow progress.definitions document [] inner { left := text } = result at followed
    obtain ⟨spine, line, closed⟩ := result
    have sized : spine.Sized := by
      rw [isChain, ← List.nil_append (document :: inner), ← List.reverse_nil, ← followed] at sized
      exact Spine.sized_chain_iff.1 sized
    dsimp only
    rw [Spine.sized_chain_iff]
    split
    · exact sized.closeInner number
    · have started : (Spine.startAll tables number spine line).1.Sized :=
        sized.startAll tables number 1
      have noted := started.noteBlank number (Spine.startAll tables number spine line).2
      generalize (Spine.startAll tables number spine line).1.noteBlank number
        (Spine.startAll tables number spine line).2 = next at noted
      cases isLazy : next.lazyText? (Spine.startAll tables number spine line).2 with
      | some lazy => exact noted.lazyText? isLazy
      | none => exact noted.takeText number _

theorem Progress.sized_readLines (tables : Bool) (lines : List (List Char)) {number : Nat}
    {progress : Progress} (sized : ∀ block ∈ progress.chain, block.Sized) :
    ∀ block ∈ (progress.readLines tables number lines).1.chain, block.Sized := by
  induction lines generalizing progress number with
  | nil => exact sized
  | cons line more ih => exact ih (sized_readLine tables number line sized)

theorem sized_readDrafts (tables : Bool) (s : List Char) :
    Draft.SizedAll (readDrafts tables s).1 := by
  let start : Progress := ⟨[{ shape := .document, first := 1 }], []⟩
  have read : ∀ block ∈ (start.readLines tables 1 (textLines s)).1.chain, block.Sized :=
    Progress.sized_readLines tables (textLines s) (List.forall_mem_singleton.2 ⟨trivial, trivial⟩)
  rw [readDrafts]
  dsimp only
  generalize start.readLines tables 1 (textLines s) = result at read
  split
  · trivial
  · rename_i document inner isChain
    rw [isChain, List.forall_mem_cons] at read
    exact (read.1.push? (sized_closeChain _ _ read.2)).inside

/-! ## Blocks -/

namespace Block

mutual

def Sized : Block → Prop
  | .heading level _ => level ≤ 6
  | .list start _ items => (∀ number ∈ start, number < 10 ^ 9) ∧ SizedAll items
  | .quote children | .item _ children | .group children => SizedAll children
  | .paragraph _ | .code _ _ _ | .html _ | .rule | .table _ | .frontmatter _ => True

def SizedAll : List Block → Prop
  | [] => True
  | block :: more => Sized block ∧ SizedAll more

end

theorem sizedAll_iff {blocks : List Block} : SizedAll blocks ↔ ∀ block ∈ blocks, block.Sized := by
  induction blocks with
  | nil => simp [SizedAll]
  | cons block more ih => rw [SizedAll, ih, List.forall_mem_cons]

theorem sized_itemOf (tasks : Bool) {children : List Block} (sized : SizedAll children) :
    (itemOf tasks children).Sized := by
  unfold itemOf
  split
  · split
    · exact ⟨trivial, sized.2⟩
    · exact sized
  · exact sized

end Block

namespace Draft

mutual

theorem sized_toBlock (tasks : Bool) (setting : Setting) :
    (draft : Draft) → draft.Sized → (draft.toBlock tasks setting).Sized
  | block shape _ _ _ drafts, sized => by
      rw [Sized] at sized
      have children : Block.SizedAll (toBlocks tasks setting drafts).reverse := by
        rw [Block.sizedAll_iff]
        simpa using Block.sizedAll_iff.1 (sized_toBlocks tasks setting drafts sized.2)
      have small := sized.1
      cases shape with
      | quote =>
          rw [toBlock]
          exact children
      | list mark start tight =>
          rw [toBlock]
          refine ⟨fun number given => ?_, children⟩
          split at given
          · cases given
            exact small
          · cases given
      | item =>
          rw [toBlock]
          exact Block.sized_itemOf tasks children
      | heading level content =>
          rw [toBlock]
          exact small
      | paragraph | code | html | rule | table =>
          rw [toBlock]
          trivial

theorem sized_toBlocks (tasks : Bool) (setting : Setting) :
    (drafts : List Draft) → SizedAll drafts → Block.SizedAll (toBlocks tasks setting drafts)
  | [], _ => by
      rw [toBlocks]
      trivial
  | draft :: more, sized => by
      rw [SizedAll] at sized
      rw [toBlocks]
      exact ⟨sized_toBlock tasks setting draft sized.1, sized_toBlocks tasks setting more sized.2⟩

end

end Draft

/-- A heading has a level of at most six, and a list a number of at most nine digits. -/
theorem sized_parse (extensions : Extensions) (s : List Char) :
    ∀ placed ∈ parse extensions s, placed.block.Sized := by
  have drafts := Draft.sizedAll_iff.1 (sized_readDrafts extensions.tables s)
  intro placed mem
  rw [parse] at mem
  obtain ⟨draft, isDraft, rfl⟩ := List.mem_map.1 (List.mem_reverse.1 mem)
  have sized := Draft.sized_toBlock extensions.tasks
    { strokes := extensions.strokes, definitions := (readDrafts extensions.tables s).2 } draft
    (drafts draft isDraft)
  cases draft
  exact sized

end Markdown

end UiMarkdown
