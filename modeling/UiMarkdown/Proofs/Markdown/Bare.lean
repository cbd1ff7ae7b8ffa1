import UiMarkdown.Proofs.Markdown.Position

/-!
# What the course of a parse depends on

Which blocks a line starts, goes on with or ends depends on the open blocks, but
on neither the numbers of their lines, the marks for blank lines nor the source
of raw HTML.  A chain of open blocks without those is bare, and lines take chains
that are the same when bare to chains that are again the same when bare.
-/

namespace UiMarkdown

namespace Markdown

/-! ## Drafts -/

/-- A shape without the source of raw HTML, and with every list as a tight one. -/
def Shape.bare : Shape → Shape
  | .list mark start _ => .list mark start true
  | .html _ => .html []
  | shape => shape

namespace Draft

mutual

/-- A draft without its lines, its marks for blank lines and the source of raw HTML. -/
def bare : Draft → Draft
  | block shape _ _ _ drafts => block shape.bare 0 0 false (bareAll drafts)

def bareAll : List Draft → List Draft
  | [] => []
  | draft :: more => bare draft :: bareAll more

end

theorem bareAll_eq_map (drafts : List Draft) : bareAll drafts = drafts.map bare := by
  induction drafts with
  | nil => rfl
  | cons draft more ih => rw [bareAll, ih, List.map_cons]

@[simp] theorem isEmpty_bareAll (drafts : List Draft) :
    (bareAll drafts).isEmpty = drafts.isEmpty := by
  cases drafts <;> rfl

@[simp] theorem bare_setBlank (draft : Draft) : draft.setBlank.bare = draft.bare := by
  cases draft
  rfl

mutual

theorem bare_bare : ∀ draft : Draft, draft.bare.bare = draft.bare
  | block shape _ _ _ drafts => by
      rw [bare, bare, bareAll_bareAll drafts]
      cases shape <;> rfl

theorem bareAll_bareAll : ∀ drafts : List Draft, bareAll (bareAll drafts) = bareAll drafts
  | [] => rfl
  | draft :: more => by rw [bareAll, bareAll, bare_bare draft, bareAll_bareAll more]

end

mutual

theorem endsBlank_bare : ∀ draft : Draft, draft.bare.endsBlank = false
  | block shape _ _ _ drafts => by
      cases shape <;> simp only [bare, Shape.bare, endsBlank, Bool.false_or,
        lastEndsBlank_bareAll drafts]

theorem lastEndsBlank_bareAll : ∀ drafts : List Draft, lastEndsBlank (bareAll drafts) = false
  | [] => rfl
  | draft :: _ => endsBlank_bare draft

end

theorem blankAfter_bare (draft : Draft) : draft.bare.blankAfter = false := by
  cases draft
  rfl

theorem inside_bare (draft : Draft) : draft.bare.inside = bareAll draft.inside := by
  cases draft
  rfl

/-- No mark for a blank line sets bare items apart. -/
theorem areApart_bareAll (isLast : Bool) (items : List Draft) :
    areApart isLast (bareAll items) = false := by
  have none {drafts : List Draft} (inside : ∀ draft ∈ drafts, ∃ whole : Draft, whole.bare = draft) :
      drafts.any endsBlank = false := by
    rw [List.any_eq_false]
    intro draft mem
    obtain ⟨whole, rfl⟩ := inside draft mem
    rw [endsBlank_bare]
    exact Bool.false_ne_true
  induction items generalizing isLast with
  | nil => rfl
  | cons item before ih =>
      have all : ∀ draft ∈ item.bare.inside, ∃ whole : Draft, whole.bare = draft := by
        intro draft mem
        rw [inside_bare, bareAll_eq_map, List.mem_map] at mem
        exact mem.imp fun _ => And.right
      rw [bareAll, areApart, blankAfter_bare, ih, Bool.and_false, Bool.false_or, Bool.or_false]
      cases isLast with
      | true => exact none fun draft mem => all draft (List.mem_of_mem_drop mem)
      | false => exact none all

end Draft

/-! ## Open blocks -/

def OpenShape.bare : OpenShape → OpenShape
  | .html kind _ => .html kind []
  | shape => shape

theorem OpenShape.bare_bare (shape : OpenShape) : shape.bare.bare = shape.bare := by
  cases shape <;> rfl

theorem OpenShape.isItem_bare (shape : OpenShape) : shape.bare.isItem = shape.isItem := by
  cases shape <;> rfl

namespace OpenBlock

variable (block : OpenBlock)

/-- An open block without its lines, its marks for blank lines and the source of raw HTML. -/
def bare : OpenBlock where
  shape := block.shape.bare
  first := 0
  inside := Draft.bareAll block.inside

@[simp] theorem bare_bare : block.bare.bare = block.bare := by
  rw [bare, bare, OpenShape.bare_bare, Draft.bareAll_bareAll]

theorem map_bare_map_bare (blocks : List OpenBlock) :
    (blocks.map bare).map bare = blocks.map bare := by
  simp

@[simp] theorem shape_bare : block.bare.shape = block.shape.bare :=
  rfl

theorem bare_mk (shape : OpenShape) (first : Nat) (blankAfter : Bool) (inside : List Draft) :
    bare ⟨shape, first, blankAfter, inside⟩ = ⟨shape.bare, 0, false, Draft.bareAll inside⟩ :=
  rfl

@[simp] theorem holds_bare (isItem : Bool) : block.bare.holds isItem = block.holds isItem := by
  rw [holds, holds, bare]
  cases block.shape <;> rfl

@[simp] theorem takesText_bare : block.bare.takesText = block.takesText := by
  rw [takesText, takesText, bare]
  cases block.shape <;> rfl

@[simp] theorem isLiteral_bare : block.bare.isLiteral = block.isLiteral := by
  rw [isLiteral, isLiteral, bare]
  cases block.shape <;> rfl

@[simp] theorem isParagraph_bare : block.bare.isParagraph = block.isParagraph := by
  rw [isParagraph, isParagraph, bare]
  cases block.shape <;> rfl

@[simp] theorem isTight_bare : block.bare.isTight = true := by
  rw [isTight, bare, Draft.areApart_bareAll, Bool.not_false]

@[simp] theorem continuation_bare (hasInside : Bool) (line : Line) :
    block.bare.continuation hasInside line = block.continuation hasInside line := by
  rw [continuation, continuation, bare]
  cases block.shape <;> rfl

theorem bare_push (draft : Draft) : (block.push draft).bare = block.bare.push draft.bare :=
  rfl

theorem bare_push? (draft? : Option Draft) :
    (block.push? draft?).bare = block.bare.push? (draft?.map Draft.bare) := by
  cases draft? <;> rfl

theorem bare_append (text : List Char) :
    (block.append text).bare = (block.bare.append text).bare := by
  rw [append, append, bare, bare, bare, Draft.bareAll_bareAll]
  cases block.shape <;> rfl

theorem bare_toDraft (last : Nat) (tight : Bool) :
    (block.toDraft last tight).bare = block.bare.toDraft 0 true := by
  rw [toDraft, toDraft, bare]
  cases block.shape <;> rfl

theorem bare_close (definitions : Definitions) (last : Nat) (tight : Bool) :
    (block.close definitions last tight).map (Option.map Draft.bare) id =
      block.bare.close definitions 0 true := by
  rw [close, close]
  cases isShape : block.shape with
  | paragraph content noTable =>
      have same : block.bare.shape = .paragraph content noTable := by rw [bare, isShape]; rfl
      rw [same]
      dsimp only
      split
      · rfl
      · rw [Prod.map_apply, Option.map_some, bare_toDraft]
        rfl
  | _ =>
      rw [bare, isShape]
      dsimp only [OpenShape.bare]
      rw [Prod.map_apply, Option.map_some, bare_toDraft, bare, isShape]
      rfl

end OpenBlock

theorem bare_closeChain (definitions : Definitions) (last : Nat) (chain : List OpenBlock) :
    (closeChain definitions last chain).map (Option.map Draft.bare) id =
      closeChain definitions 0 (chain.map OpenBlock.bare) := by
  induction chain with
  | nil => rfl
  | cons block inner ih =>
      rw [closeChain, List.map_cons, closeChain, ← ih]
      dsimp only [Prod.map]
      rw [← OpenBlock.bare_push?, OpenBlock.isTight_bare]
      exact OpenBlock.bare_close _ _ _ _

theorem bare_chainDraft? (chain : List OpenBlock) :
    (chainDraft? chain).map Draft.bare = chainDraft? (chain.map OpenBlock.bare) := by
  induction chain with
  | nil => rfl
  | cons block inner ih =>
      rw [chainDraft?, List.map_cons, chainDraft?, ← ih, ← OpenBlock.bare_push?, Option.map_some,
        OpenBlock.bare_toDraft]
      rfl

/-! ## What a line does to the chain -/

def Spine.bare (spine : Spine) : Spine where
  container := spine.container.bare
  around := spine.around.map OpenBlock.bare
  inner := spine.inner.map OpenBlock.bare
  definitions := spine.definitions

theorem bare_follow (definitions : Definitions) (container : OpenBlock)
    (around inner : List OpenBlock) (line : Line) :
    (follow definitions container around inner line).map Spine.bare id =
      follow definitions container.bare (around.map OpenBlock.bare) (inner.map OpenBlock.bare)
        line := by
  induction inner generalizing container around line with
  | nil => rfl
  | cons block inner ih =>
      have inside : block.bare.inside.isEmpty = block.inside.isEmpty := Draft.isEmpty_bareAll _
      rw [follow, List.map_cons, follow, OpenBlock.continuation_bare, inside, List.isEmpty_map]
      split
      · exact ih _ _ _
      · rfl
      · rfl

namespace Spine

variable (spine : Spine)

@[simp] theorem container_bare : spine.bare.container = spine.container.bare :=
  rfl

@[simp] theorem bare_bare : spine.bare.bare = spine.bare := by
  simp [bare]

/-- A place that a line leaves as it is. -/
theorem bare_stay (line : Line) : (spine, line).map bare id = (spine.bare, line).map bare id := by
  rw [Prod.map_apply, Prod.map_apply, bare_bare]

theorem bare_closeInner (last : Nat) :
    (spine.closeInner last).bare = spine.bare.closeInner 0 := by
  have closed := bare_closeChain spine.definitions last spine.inner
  simp only [bare, closeInner]
  rw [← closed, OpenBlock.bare_push?]
  rfl

/-- A bare list is tight however the blocks inside it stand. -/
theorem isTight_bare_push? :
    (spine.bare.container.push? (chainDraft? spine.bare.inner)).isTight = true := by
  have drafted : (spine.container.push? (chainDraft? spine.inner)).bare =
      spine.bare.container.push? (chainDraft? spine.bare.inner) := by
    rw [OpenBlock.bare_push?, bare_chainDraft?]
    rfl
  rw [← drafted, OpenBlock.isTight_bare]

theorem bare_makeRoom (isItem : Bool) (last : Nat) :
    (spine.makeRoom isItem last).bare = spine.bare.makeRoom isItem 0 := by
  have holds : spine.bare.container.holds isItem = spine.container.holds isItem :=
    spine.container.holds_bare isItem
  rw [makeRoom, makeRoom, holds]
  split
  · exact spine.bare_closeInner last
  · rw [isTight_bare_push?, ← bare_closeInner spine last]
    generalize spine.closeInner last = closed
    cases isAround : closed.around with
    | nil => simp only [bare, isAround, List.map_nil]
    | cons outer around =>
        have container := closed.container.bare_close closed.definitions last
          (spine.container.push? (chainDraft? spine.inner)).isTight
        simp only [bare, isAround, List.map_cons, List.map_nil]
        rw [← container, OpenBlock.bare_push?]
        rfl

theorem bare_openBlock (shape : OpenShape) (number : Nat) :
    (spine.openBlock shape number).bare = spine.bare.openBlock shape.bare 0 := by
  rw [openBlock_eq, openBlock_eq, OpenShape.isItem_bare, ← bare_makeRoom spine _ (number - 1)]
  rfl

theorem bare_underline (level : Nat) (content : List Char) (noTable : Bool) (line : Line) :
    (spine.underline level content noTable line).map bare id =
      spine.bare.underline level content noTable line := by
  rw [underline, underline, show spine.bare.definitions = spine.definitions from rfl]
  dsimp only
  split <;> rfl

theorem bare_openItem (number : Nat) (mark : ListMark) (start length : Nat) (line : Line) :
    (spine.openItem number mark start length line).map bare id =
      spine.bare.openItem 0 mark start length line := by
  rw [openItem, openItem, container_bare, OpenBlock.shape_bare]
  cases spine.container.shape with
  | list other first =>
      dsimp only [OpenShape.bare]
      rw [Prod.map_apply, bare_openBlock, apply_ite bare, bare_openBlock]
      rfl
  | _ =>
      dsimp only [OpenShape.bare]
      rw [Prod.map_apply, bare_openBlock, apply_ite bare, bare_openBlock]
      rfl

/-- A block may become another one in a bare chain, too. -/
theorem bare_alter (shape : OpenShape) (definitions : Definitions) :
    bare { spine.bare with
      container := { spine.bare.container with shape }
      definitions } =
    bare { spine with container := { spine.container with shape }, definitions } := by
  simp only [bare, OpenBlock.bare_mk, OpenBlock.map_bare_map_bare]
  rw [OpenBlock.bare, Draft.bareAll_bareAll]

theorem bare_openTable (content : List Char) (line : Line) :
    (spine.openTable content line).map (Prod.map bare id) =
      (spine.bare.openTable content line).map (Prod.map bare id) := by
  rw [openTable, openTable]
  dsimp only
  split
  · rfl
  · simp only [Option.map_some, Prod.map_apply, id, bare, OpenBlock.bare_mk,
      OpenBlock.map_bare_map_bare]
    cases spine.around with
    | nil => rfl
    | cons outer more =>
        dsimp only [List.map_cons]
        split
        · rw [List.map_cons, List.map_cons, OpenBlock.bare_bare, OpenBlock.map_bare_map_bare]
        · simp only [List.map_cons, OpenBlock.bare_push, OpenBlock.bare_bare,
            OpenBlock.map_bare_map_bare]
          rfl

theorem bare_readTable (line : Line) :
    (spine.readTable line).map bare id = (spine.bare.readTable line).map bare id := by
  rw [readTable, readTable, container_bare, OpenBlock.shape_bare]
  cases spine.container.shape with
  | paragraph content noTable =>
      dsimp only [OpenShape.bare]
      split
      · exact spine.bare_stay line
      · have forbidden : (spine.forbidTable content).bare =
            (spine.bare.forbidTable content).bare :=
          (spine.bare_alter _ _).symm
        have opened := spine.bare_openTable content line
        cases found : spine.openTable content line with
        | none =>
            rw [found, Option.map_none, eq_comm, Option.map_eq_none_iff] at opened
            rw [opened, Option.getD_none, Option.getD_none, Prod.map_apply, forbidden]
            rfl
        | some next =>
            rw [found, Option.map_some, eq_comm, Option.map_eq_some_iff] at opened
            obtain ⟨other, isOther, same⟩ := opened
            rw [isOther, Option.getD_some, Option.getD_some, same]
  | table columns rows =>
      dsimp only [OpenShape.bare]
      split
      · exact spine.bare_stay line
      · rw [Prod.map_apply, Prod.map_apply]
        exact congrArg (·, _) (spine.bare_alter _ _).symm
  | _ => exact spine.bare_stay line

theorem bare_start? (number depth : Nat) (line : Line) :
    (spine.start? number depth line).map (Prod.map bare id) = spine.bare.start? 0 depth line := by
  have ends : spine.bare.endsInParagraph = spine.endsInParagraph := by
    simp only [endsInParagraph, bare, List.getLast?_map]
    cases spine.inner.getLast? <;> exact OpenBlock.isParagraph_bare _
  have opened (shape : OpenShape) (rest : Line) :
      (some (spine.openBlock shape number, rest)).map (Prod.map bare id) =
        some (spine.bare.openBlock shape.bare 0, rest) := by
    rw [Option.map_some, Prod.map_apply, bare_openBlock]
    rfl
  unfold start?
  rw [container_bare, OpenBlock.isParagraph_bare, OpenBlock.shape_bare, ends]
  dsimp only
  split
  · split
    · exact opened _ _
    · split
      · exact opened _ _
      · split
        · exact opened _ _
        · split
          · exact opened _ _
          · cases spine.container.shape <;> cases underline? line.body
            case paragraph.some content noTable level =>
              exact congrArg some (spine.bare_underline level content noTable line)
            all_goals
              dsimp only [OpenShape.bare]
              split
              · exact opened _ _
              · split
                · split
                  · rw [Option.map_some, bare_openItem]
                  · rfl
                · rfl
  · split
    · exact opened _ _
    · rfl

theorem bare_startAll (tables : Bool) (number : Nat) (line : Line) (depth : Nat) :
    (startAll tables number spine line depth).map bare id =
      (startAll tables 0 spine.bare line depth).map bare id := by
  fun_induction startAll tables number spine line depth with
  | case1 spine line depth isLiteral =>
      rw [startAll, container_bare, OpenBlock.isLiteral_bare, if_pos isLiteral, bare_stay]
  | case2 spine line depth notLiteral next rest found isText =>
      rw [startAll, container_bare, OpenBlock.isLiteral_bare, if_neg notLiteral,
        ← bare_start? spine number, found]
      dsimp only [Option.map_some, Prod.map_apply, id]
      rw [container_bare, OpenBlock.takesText_bare, if_pos isText]
      exact next.bare_stay rest
  | case3 spine line depth notLiteral next rest found noText shorter ih =>
      rw [ih, eq_comm, startAll, container_bare, OpenBlock.isLiteral_bare, if_neg notLiteral,
        ← bare_start? spine number, found]
      dsimp only [Option.map_some, Prod.map_apply, id]
      rw [container_bare, OpenBlock.takesText_bare, if_neg noText, if_pos shorter]
  | case4 spine line depth notLiteral next rest found noText longer =>
      rw [startAll, container_bare, OpenBlock.isLiteral_bare, if_neg notLiteral,
        ← bare_start? spine number, found]
      dsimp only [Option.map_some, Prod.map_apply, id]
      rw [container_bare, OpenBlock.takesText_bare, if_neg noText, if_neg longer]
      exact next.bare_stay rest
  | case5 spine line depth notLiteral found isTable =>
      rw [startAll, container_bare, OpenBlock.isLiteral_bare, if_neg notLiteral,
        ← bare_start? spine number, found]
      dsimp only [Option.map_none]
      rw [if_pos isTable, bare_readTable]
  | case6 spine line depth notLiteral found noTable =>
      rw [startAll, container_bare, OpenBlock.isLiteral_bare, if_neg notLiteral,
        ← bare_start? spine number, found]
      dsimp only [Option.map_none]
      rw [if_neg noTable, bare_stay]

theorem bare_noteBlank (number : Nat) (line : Line) :
    (spine.noteBlank number line).bare = spine.bare := by
  obtain ⟨⟨shape, first, blankAfter, inside⟩, around, inner, definitions⟩ := spine
  have unmarked : (around.map fun block => { block with blankAfter := false }).map OpenBlock.bare =
      around.map OpenBlock.bare := by
    rw [List.map_map]
    rfl
  unfold noteBlank
  simp only [bare, unmarked, OpenBlock.bare_mk]
  cases line.isBlank with
  | false => rfl
  | true =>
      cases inner with
      | cons block more => rfl
      | nil =>
          cases inside with
          | nil => rfl
          | cons draft more =>
              dsimp only
              rw [Draft.bareAll, Draft.bare_setBlank]
              rfl

/-- Text that the container takes is taken by a bare one, too. -/
theorem bare_append (text : List Char) :
    bare { spine with container := spine.container.append text } =
      bare { spine.bare with container := spine.bare.container.append text } := by
  simp only [bare, OpenBlock.map_bare_map_bare]
  rw [OpenBlock.bare_append]

theorem bare_takeText (number : Nat) (line : Line) :
    (spine.takeText number line).bare = (spine.bare.takeText 0 line).bare := by
  rw [takeText, takeText, ← bare_closeInner spine (number - 1)]
  generalize spine.closeInner (number - 1) = spine
  rw [container_bare, OpenBlock.shape_bare]
  cases spine.container.shape with
  | fenced mark length indent content => exact spine.bare_append _
  | indented content => exact spine.bare_append _
  | heading level content => exact spine.bare_append _
  | html kind source =>
      have appended := spine.bare_append (line.text ++ ['\n'])
      have around : spine.bare.around = spine.around.map OpenBlock.bare := rfl
      dsimp only at appended
      rw [around] at appended ⊢
      dsimp only [OpenShape.bare]
      cases isAround : spine.around with
      | nil =>
          rw [isAround] at appended
          exact appended
      | cons outer more =>
          rw [isAround, List.map_cons] at appended
          rw [List.map_cons]
          dsimp only
          split
          · simp only [bare, OpenBlock.map_bare_map_bare, OpenBlock.bare_push, OpenBlock.bare_bare,
              OpenBlock.bare_toDraft, OpenBlock.bare_append spine.container]
          · exact appended
  | paragraph content noTable =>
      dsimp only [OpenShape.bare]
      split
      · exact spine.bare_bare.symm
      · exact spine.bare_append _
  | _ =>
      dsimp only [OpenShape.bare]
      split
      · exact spine.bare_bare.symm
      · rw [bare_openBlock, bare_openBlock, bare_bare]

theorem bare_lazyText? (line : Line) :
    (spine.lazyText? line).map bare = (spine.bare.lazyText? line).map bare := by
  have inner : spine.bare.inner = spine.inner.map OpenBlock.bare := rfl
  rw [lazyText?, lazyText?, inner, ← List.map_reverse]
  cases spine.inner.reverse with
  | nil => rfl
  | cons block outer =>
      rw [List.map_cons]
      dsimp only
      rw [OpenBlock.isParagraph_bare]
      split
      · simp only [Option.map_some, bare, OpenBlock.map_bare_map_bare, List.reverse_cons,
          List.map_append, List.map_reverse, List.map_cons, List.map_nil, OpenBlock.bare_bare]
        rw [OpenBlock.bare_append]
      · rfl

def finish (tables : Bool) (number : Nat) (line : Line) (closed : Bool) : Spine :=
  if closed then spine.closeFence number
  else
    let (next, rest) := spine.startAll tables number line
    let noted := next.noteBlank number rest
    (noted.lazyText? rest).getD (noted.takeText number rest)

/-- Chains that are the same when bare take the rest of a line alike. -/
theorem bare_text_congr {a b : Spine} (same : a.bare = b.bare) (m n : Nat) (rest : Line) :
    ((a.lazyText? rest).getD (a.takeText m rest)).bare =
      ((b.lazyText? rest).getD (b.takeText n rest)).bare := by
  have bareOf (lazy? : Option Spine) (other : Spine) :
      (lazy?.getD other).bare = (lazy?.map bare).getD other.bare :=
    (Option.getD_map bare other lazy?).symm
  have lazy := a.bare_lazyText? rest
  rw [same, ← bare_lazyText?] at lazy
  rw [bareOf, bareOf, lazy, bare_takeText, same, ← bare_takeText]

/-- Lines that start the same blocks are finished alike. -/
theorem bare_finish_congr {tables : Bool} {a b : Spine} {m n : Nat} {line line' : Line}
    (started : (startAll tables m a line).map bare id = (startAll tables n b line').map bare id) :
    (a.finish tables m line false).bare = (b.finish tables n line' false).bare := by
  rw [finish, finish, if_neg Bool.false_ne_true, if_neg Bool.false_ne_true]
  generalize startAll tables m a line = a at started
  generalize startAll tables n b line' = b at started
  obtain ⟨a, rest⟩ := a
  obtain ⟨b, rest'⟩ := b
  rw [Prod.map_apply, Prod.map_apply, Prod.mk.injEq] at started
  obtain ⟨same, rfl⟩ := started
  refine bare_text_congr ?_ m n rest
  rw [bare_noteBlank, bare_noteBlank, same]

theorem bare_finish (tables : Bool) (number : Nat) (line : Line) (closed : Bool) :
    (spine.finish tables number line closed).bare =
      (spine.bare.finish tables 0 line closed).bare := by
  cases closed with
  | true => rw [finish, finish, if_pos rfl, if_pos rfl, closeFence, closeFence, bare_closeInner,
      bare_closeInner, bare_bare]
  | false => exact bare_finish_congr (spine.bare_startAll tables number line 1)

end Spine

/-! ## Lines one after another -/

def Progress.bare (progress : Progress) : Progress where
  chain := progress.chain.map OpenBlock.bare
  definitions := progress.definitions

namespace Progress

theorem readLine_cons (tables : Bool) (definitions : Definitions) (document : OpenBlock)
    (inner : List OpenBlock) (number : Nat) (text : List Char) :
    readLine tables ⟨document :: inner, definitions⟩ number text =
      let (spine, line, closed) := follow definitions document [] inner { left := text }
      ⟨(spine.finish tables number line closed).chain,
        (spine.finish tables number line closed).definitions⟩ :=
  rfl

theorem readLines_append (tables : Bool) (progress : Progress) (number : Nat)
    (a b : List (List Char)) :
    (progress.readLines tables number (a ++ b)).1 =
      ((progress.readLines tables number a).1.readLines tables (number + a.length) b).1 := by
  induction a generalizing progress number with
  | nil => rfl
  | cons line a ih =>
      rw [List.cons_append, readLines, readLines, ih, List.length_cons, Nat.add_assoc,
        Nat.add_comm 1]

theorem bare_readLine (tables : Bool) (progress : Progress) (number : Nat) (text : List Char) :
    (progress.readLine tables number text).bare =
      (progress.bare.readLine tables 0 text).bare := by
  have left (spine : Spine) : bare ⟨spine.chain, spine.definitions⟩ =
      ⟨spine.bare.chain, spine.bare.definitions⟩ := by
    simp [bare, Spine.chain, Spine.bare]
  obtain ⟨chain, definitions⟩ := progress
  cases chain with
  | nil => rfl
  | cons document inner =>
      have followed := bare_follow definitions document [] inner { left := text }
      rw [show bare ⟨document :: inner, definitions⟩ =
        ⟨document.bare :: inner.map OpenBlock.bare, definitions⟩ from rfl, readLine_cons,
        readLine_cons, ← List.map_nil, ← followed]
      dsimp only [Prod.map_apply, id]
      rw [left, left, Spine.bare_finish]
      rfl

/-- Lines take chains that are the same when bare to such chains, whatever their numbers are. -/
theorem bare_readLine_congr (tables : Bool) {a b : Progress} (same : a.bare = b.bare)
    (m n : Nat) (text : List Char) :
    (a.readLine tables m text).bare = (b.readLine tables n text).bare := by
  rw [bare_readLine, same, ← bare_readLine]

theorem bare_readLines_congr (tables : Bool) {a b : Progress} (same : a.bare = b.bare)
    (m n : Nat) (lines : List (List Char)) :
    (a.readLines tables m lines).1.bare = (b.readLines tables n lines).1.bare := by
  induction lines generalizing a b m n with
  | nil => exact same
  | cons line more ih => exact ih (bare_readLine_congr tables same m n line) _ _

end Progress

end Markdown

end UiMarkdown
