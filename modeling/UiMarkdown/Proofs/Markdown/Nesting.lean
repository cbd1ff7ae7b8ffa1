import UiMarkdown.Proofs.Markdown.Bare

/-!
# What open blocks hold

Every open block is one that the block around it may hold: an item is in a list,
and no other block is; text and rules hold nothing.  So a block that takes text
is always the innermost one.
-/

namespace UiMarkdown

namespace Markdown

def OpenBlock.MayHold (outer inner : OpenBlock) : Prop :=
  outer.holds inner.shape.isItem = true

theorem OpenBlock.mayHold_bare {outer inner : OpenBlock} :
    outer.bare.MayHold inner.bare ↔ outer.MayHold inner := by
  rw [MayHold, MayHold, holds_bare, shape_bare, OpenShape.isItem_bare]

/-- An item may hold any block that is no item. -/
theorem OpenBlock.isItem_eq_false {block : OpenBlock} (leaf : block.holds false = false) :
    block.shape.isItem = false := by
  rw [holds] at leaf
  cases isShape : block.shape with
  | item indent =>
      rw [isShape] at leaf
      cases leaf
  | _ => rfl

theorem OpenBlock.holds_of_paragraph {block : OpenBlock} {content : List Char} {noTable : Bool}
    (paragraph : block.shape = .paragraph content noTable) (isItem : Bool) :
    block.holds isItem = false := by
  rw [holds, paragraph]

@[simp] theorem OpenBlock.holds_push? (block : OpenBlock) (draft? : Option Draft)
    (isItem : Bool) : (block.push? draft?).holds isItem = block.holds isItem := by
  rw [holds, holds, shape_push?]

@[simp] theorem OpenBlock.holds_append (block : OpenBlock) (text : List Char) (isItem : Bool) :
    (block.append text).holds isItem = block.holds isItem := by
  rw [holds, holds, append]
  cases block.shape <;> rfl

@[simp] theorem OpenBlock.isItem_append (block : OpenBlock) (text : List Char) :
    (block.append text).shape.isItem = block.shape.isItem := by
  rw [append]
  cases block.shape <;> rfl

/-- Blocks around a block, innermost first: each may hold the one before it, and the last one is
no list. -/
def Rooted (block : OpenBlock) : (around : List OpenBlock) → Prop
  | [] => block.holds false = true
  | outer :: around => outer.MayHold block ∧ Rooted outer around

theorem Rooted.alter {block block' : OpenBlock} {around : List OpenBlock}
    (rooted : Rooted block around) (holds : block'.holds false = block.holds false)
    (isItem : block'.shape.isItem = block.shape.isItem) : Rooted block' around := by
  cases around with
  | nil => exact holds.trans rooted
  | cons outer around => exact ⟨(congrArg outer.holds isItem).trans rooted.1, rooted.2⟩

/-- Around a block that holds only items, or nothing, there is one that may hold any other. -/
theorem Rooted.outer {block : OpenBlock} {around : List OpenBlock} (rooted : Rooted block around)
    (leaf : block.holds false = false) :
    ∃ outer more, around = outer :: more ∧ outer.holds false = true ∧ Rooted outer more := by
  cases around with
  | nil => exact absurd (leaf.symm.trans rooted) Bool.false_ne_true
  | cons outer more =>
      have holds : outer.holds block.shape.isItem = true := rooted.1
      rw [OpenBlock.isItem_eq_false leaf] at holds
      exact ⟨outer, more, rfl, holds, rooted.2⟩

theorem rooted_bare {block : OpenBlock} {around : List OpenBlock} :
    Rooted block.bare (around.map OpenBlock.bare) ↔ Rooted block around := by
  induction around generalizing block with
  | nil => rw [List.map_nil, Rooted, Rooted, OpenBlock.holds_bare]
  | cons outer around ih =>
      rw [List.map_cons, Rooted, Rooted, OpenBlock.mayHold_bare]
      exact and_congr_right fun _ => ih

namespace Spine

/-- Each open block may hold the next one inside it. -/
structure Nested (spine : Spine) : Prop where
  rooted : Rooted spine.container spine.around
  inner : (spine.container :: spine.inner).IsChain OpenBlock.MayHold

theorem nested_bare {spine : Spine} : spine.bare.Nested ↔ spine.Nested := by
  have inner : (spine.bare.container :: spine.bare.inner).IsChain OpenBlock.MayHold ↔
      (spine.container :: spine.inner).IsChain OpenBlock.MayHold := by
    rw [show spine.bare.container :: spine.bare.inner =
      (spine.container :: spine.inner).map OpenBlock.bare from rfl, List.isChain_map]
    simp only [OpenBlock.mayHold_bare]
  exact ⟨fun nested => ⟨rooted_bare.1 nested.rooted, inner.1 nested.inner⟩,
    fun nested => ⟨rooted_bare.2 nested.rooted, inner.2 nested.inner⟩⟩

namespace Nested

variable {spine : Spine}

/-- The innermost block may become another one that holds nothing. -/
theorem alter (nested : spine.Nested) (empty : spine.inner = []) {container : OpenBlock}
    (definitions : Definitions) (holds : container.holds false = spine.container.holds false)
    (isItem : container.shape.isItem = spine.container.shape.isItem) :
    Nested { spine with container, definitions } := by
  refine ⟨nested.rooted.alter holds isItem, ?_⟩
  dsimp only
  rw [empty]
  exact .singleton _

theorem closeInner (nested : spine.Nested) (last : Nat) : (spine.closeInner last).Nested := by
  refine ⟨nested.rooted.alter ?_ ?_, .singleton _⟩
  · rw [Spine.closeInner, OpenBlock.holds_push?]
  · rw [Spine.closeInner, OpenBlock.shape_push?]

/-- The container that has room for a block may hold it. -/
theorem makeRoom (nested : spine.Nested) {isItem : Bool} (last : Nat)
    (inList : isItem = true → spine.container.holds true = true) :
    (spine.makeRoom isItem last).Nested ∧ (spine.makeRoom isItem last).inner = [] ∧
      (spine.makeRoom isItem last).container.holds isItem = true := by
  have closed := nested.closeInner last
  have same : (spine.closeInner last).container.holds isItem = spine.container.holds isItem := by
    rw [Spine.closeInner, OpenBlock.holds_push?]
  rw [Spine.makeRoom]
  split
  · rename_i holds
    exact ⟨closed, rfl, same.trans holds⟩
  · rename_i cannot
    cases isItem with
    | true => exact absurd (inList rfl) cannot
    | false =>
        rw [Bool.not_eq_true] at cannot
        obtain ⟨outer, more, isAround, holds, rooted⟩ := closed.rooted.outer (same.trans cannot)
        dsimp only
        rw [isAround]
        have pushed (draft? : Option Draft) : (outer.push? draft?).holds false = true := by
          rw [OpenBlock.holds_push?, holds]
        refine ⟨⟨rooted.alter ((pushed _).trans holds.symm) ?_, .singleton _⟩, rfl, pushed _⟩
        rw [OpenBlock.shape_push?]

theorem openBlock (nested : spine.Nested) {shape : OpenShape} (number : Nat)
    (inList : shape.isItem = true → spine.container.holds true = true) :
    (spine.openBlock shape number).Nested ∧ (spine.openBlock shape number).inner = [] := by
  obtain ⟨room, empty, holds⟩ := nested.makeRoom (number - 1) inList
  rw [openBlock_eq]
  refine ⟨⟨⟨holds, room.rooted⟩, ?_⟩, empty⟩
  dsimp only
  rw [empty]
  exact .singleton _

/-- A block that holds nothing is the innermost one. -/
theorem inner_eq_nil (nested : spine.Nested)
    (leaf : ∀ isItem, spine.container.holds isItem = false) : spine.inner = [] := by
  cases isInner : spine.inner with
  | nil => rfl
  | cons block more =>
      have inner := nested.inner
      rw [isInner, List.isChain_cons_cons, OpenBlock.MayHold, leaf] at inner
      cases inner.1

/-- A block that holds nothing may become any other one that holds nothing. -/
theorem alterLeaf (nested : spine.Nested)
    (leaf : ∀ isItem, spine.container.holds isItem = false) {container : OpenBlock}
    (definitions : Definitions) (leaf' : container.holds false = false) :
    Nested { spine with container, definitions } :=
  nested.alter (nested.inner_eq_nil leaf) definitions (leaf'.trans (leaf false).symm)
    ((OpenBlock.isItem_eq_false leaf').trans (OpenBlock.isItem_eq_false (leaf false)).symm)

theorem underline (nested : spine.Nested) {content : List Char} {noTable : Bool}
    (paragraph : spine.container.shape = .paragraph content noTable) (level : Nat) (line : Line) :
    (spine.underline level content noTable line).1.Nested := by
  have leaf := OpenBlock.holds_of_paragraph paragraph
  rw [Spine.underline]
  dsimp only
  split <;> exact nested.alterLeaf leaf _ rfl

theorem openItem (nested : spine.Nested) (number : Nat) (mark : ListMark) (start length : Nat)
    (line : Line) : (spine.openItem number mark start length line).1.Nested := by
  have item (goesOn : Bool) (isList : goesOn = true → spine.container.holds true = true)
      (indent : Nat) :
      Nested ((if goesOn then spine else spine.openBlock (.list mark start) number).openBlock
        (.item indent) number) := by
    cases goesOn with
    | true => exact (nested.openBlock number fun _ => isList rfl).1
    | false =>
        have opened : (spine.openBlock (.list mark start) number).Nested :=
          (nested.openBlock number (fun isItem => by cases isItem)).1
        exact (opened.openBlock number fun _ => rfl).1
  unfold Spine.openItem
  refine item _ (fun goesOn => ?_) _
  split at goesOn
  · rename_i isList
    rw [OpenBlock.holds, isList]
  · cases goesOn

theorem openTable (nested : spine.Nested) {content : List Char} {noTable : Bool}
    (paragraph : spine.container.shape = .paragraph content noTable) {line rest : Line}
    {next : Spine} (found : spine.openTable content line = some (next, rest)) : next.Nested := by
  have leaf := OpenBlock.holds_of_paragraph paragraph
  have empty := nested.inner_eq_nil leaf
  obtain ⟨outer, more, isAround, holds, rooted⟩ := nested.rooted.outer (leaf false)
  unfold Spine.openTable at found
  dsimp only at found
  rw [isAround] at found
  split at found
  · cases found
  · cases found
    dsimp only
    refine ⟨?_, empty ▸ .singleton _⟩
    split
    · exact ⟨holds, rooted⟩
    · exact ⟨holds, rooted.alter rfl rfl⟩

theorem readTable (nested : spine.Nested) (line : Line) : (spine.readTable line).1.Nested := by
  rw [Spine.readTable]
  split
  · rename_i content noTable paragraph
    split
    · exact nested
    · cases opened : spine.openTable content line with
      | none => exact nested.alterLeaf (OpenBlock.holds_of_paragraph paragraph) _ rfl
      | some found => exact nested.openTable paragraph opened
  · rename_i columns rows isTable
    have leaf (isItem : Bool) : spine.container.holds isItem = false := by
      rw [OpenBlock.holds, isTable]
    split
    · exact nested
    · exact nested.alterLeaf leaf _ rfl
  · exact nested

theorem start? (nested : spine.Nested) {number depth : Nat} {next : Spine} {line rest : Line}
    (found : spine.start? number depth line = some (next, rest)) : next.Nested := by
  have opened {shape : OpenShape} (other : shape.isItem = false) :
      (spine.openBlock shape number).Nested :=
    (nested.openBlock number fun isItem => absurd (other.symm.trans isItem) Bool.false_ne_true).1
  unfold Spine.start? at found
  dsimp only at found
  split at found
  · split at found
    · cases found
      exact opened rfl
    · split at found
      · cases found
        exact opened rfl
      · split at found
        · cases found
          exact opened rfl
        · split at found
          · cases found
            exact opened rfl
          · split at found
            · rename_i content noTable level paragraph _
              have next := nested.underline paragraph level line
              rwa [Option.some.inj found] at next
            · split at found
              · cases found
                exact opened rfl
              · split at found
                · rename_i mark start length _
                  split at found
                  · have next := nested.openItem number mark start length line
                    rwa [Option.some.inj found] at next
                  · cases found
                · cases found
  · split at found
    · cases found
      exact opened rfl
    · cases found

theorem startAll (tables : Bool) (number depth : Nat) {line : Line} (nested : spine.Nested) :
    (Spine.startAll tables number spine line depth).1.Nested := by
  fun_induction Spine.startAll tables number spine line depth with
  | case1 spine line depth literal => exact nested
  | case2 spine line depth _ next rest found takes => exact nested.start? found
  | case3 spine line depth _ next rest found takes shorter ih => exact ih (nested.start? found)
  | case4 spine line depth _ next rest found => exact nested.start? found
  | case5 spine line depth => exact nested.readTable line
  | case6 spine line depth => exact nested

theorem noteBlank (nested : spine.Nested) (number : Nat) (line : Line) :
    (spine.noteBlank number line).Nested := by
  rw [← nested_bare, bare_noteBlank, nested_bare]
  exact nested

theorem takeText (nested : spine.Nested) (number : Nat) (line : Line) :
    (spine.takeText number line).Nested := by
  have closed := nested.closeInner (number - 1)
  have empty : (spine.closeInner (number - 1)).inner = [] := rfl
  unfold Spine.takeText
  generalize spine.closeInner (number - 1) = spine at closed empty
  have grown (text : List Char) :
      Nested { spine with container := spine.container.append text } :=
    closed.alter empty _ (OpenBlock.holds_append _ _ _) (OpenBlock.isItem_append _ _)
  dsimp only
  split
  · exact grown _
  · exact grown _
  · rename_i isHtml
    have leaf : spine.container.holds false = false := by
      rw [OpenBlock.holds, isHtml]
    obtain ⟨outer, more, isAround, holds, rooted⟩ := closed.rooted.outer leaf
    have grown := grown (line.text ++ ['\n'])
    rw [isAround] at grown ⊢
    dsimp only
    split
    · exact ⟨rooted.alter rfl rfl, empty ▸ .singleton _⟩
    · exact grown
  · exact grown _
  · split
    · exact closed
    · exact grown _
  · split
    · exact closed
    · exact (closed.openBlock number fun isItem => by cases isItem).1

theorem lazyText? (nested : spine.Nested) {next : Spine} {line : Line}
    (found : spine.lazyText? line = some next) : next.Nested := by
  unfold Spine.lazyText? at found
  split at found
  · rename_i block outer isInner
    split at found
    · cases found
      have inner := nested.inner
      rw [← List.reverse_reverse spine.inner, isInner, List.reverse_cons, ← List.cons_append,
        List.isChain_append] at inner
      refine ⟨nested.rooted, ?_⟩
      rw [List.reverse_cons, ← List.cons_append, List.isChain_append]
      refine ⟨inner.1, .singleton _, fun last isLast next isNext => ?_⟩
      cases isNext
      rw [OpenBlock.MayHold, OpenBlock.isItem_append]
      exact inner.2.2 last isLast block rfl
    · cases found
  · cases found

theorem finish (nested : spine.Nested) (tables : Bool) (number : Nat) (line : Line)
    (closed : Bool) : (spine.finish tables number line closed).Nested := by
  rw [Spine.finish]
  split
  · exact nested.closeInner number
  · have started : (Spine.startAll tables number spine line).1.Nested :=
      nested.startAll tables number 1
    generalize Spine.startAll tables number spine line = result at started
    obtain ⟨next, rest⟩ := result
    have noted := started.noteBlank number rest
    dsimp only
    cases isLazy : (next.noteBlank number rest).lazyText? rest with
    | some lazy => exact noted.lazyText? isLazy
    | none => exact noted.takeText number rest

end Nested

end Spine

/-! ## Lines one after another -/

/-- Following a line keeps to blocks that may hold one another. -/
theorem nested_follow {definitions : Definitions} {container : OpenBlock}
    {around inner : List OpenBlock} (line : Line) (rooted : Rooted container around)
    (isChain : (container :: inner).IsChain OpenBlock.MayHold) :
    (follow definitions container around inner line).1.Nested := by
  induction inner generalizing container around line with
  | nil => exact ⟨rooted, isChain⟩
  | cons block inner ih =>
      rw [follow]
      split
      · rw [List.isChain_cons_cons] at isChain
        exact ih _ ⟨isChain.1, rooted⟩ isChain.2
      · exact ⟨rooted, isChain⟩
      · exact ⟨rooted, isChain⟩

/-- Open blocks, outermost first: each may hold the next one, and the first one is no list. -/
structure Nested (chain : List OpenBlock) : Prop where
  outermost : ∀ block ∈ chain.head?, block.holds false = true
  isChain : chain.IsChain OpenBlock.MayHold

theorem Spine.Nested.chain {spine : Spine} (nested : spine.Nested) :
    Markdown.Nested spine.chain := by
  obtain ⟨container, around, inner, definitions⟩ := spine
  obtain ⟨rooted, isChain⟩ := nested
  rw [Spine.chain]
  dsimp only at rooted isChain ⊢
  induction around generalizing container inner with
  | nil => exact ⟨fun block isFirst => Option.some.inj isFirst ▸ rooted, isChain⟩
  | cons outer around ih =>
      rw [List.reverse_cons, List.append_assoc]
      exact ih outer (container :: inner) rooted.2 (.cons_cons rooted.1 isChain)

theorem Nested.readLine {progress : Progress} (nested : Nested progress.chain) (tables : Bool)
    (number : Nat) (text : List Char) :
    Nested (progress.readLine tables number text).chain := by
  obtain ⟨chain, definitions⟩ := progress
  cases chain with
  | nil => exact nested
  | cons document inner =>
      rw [Progress.readLine_cons]
      have followed : (follow definitions document [] inner { left := text }).1.Nested :=
        nested_follow _ (nested.outermost document rfl) nested.isChain
      exact (followed.finish tables number _ _).chain

theorem Nested.readLines {progress : Progress} (nested : Nested progress.chain) (tables : Bool)
    (number : Nat) (lines : List (List Char)) :
    Nested (progress.readLines tables number lines).1.chain := by
  induction lines generalizing progress number with
  | nil => exact nested
  | cons line more ih => exact ih (nested.readLine tables number line) _

end Markdown

end UiMarkdown
