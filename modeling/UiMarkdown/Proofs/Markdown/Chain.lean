import Mathlib.Data.List.Chain
import UiMarkdown.Markdown.Draft

/-!
# Chains of open blocks

While lines are read, the closed blocks in every open block lie one behind the
other, and the next open block begins behind all of them.  Such a chain may lose
blocks at its end, which leave a draft, and its blocks may take text.
-/

namespace UiMarkdown

namespace Markdown

/-! ## Drafts and open blocks -/

namespace Draft

def first : Draft → Nat
  | block _ first _ _ _ => first

def last : Draft → Nat
  | block _ _ last _ _ => last

/-- Drafts, last first, lie before a line and none shares a line with another one. -/
def Stacked (bound : Nat) : List Draft → Prop
  | [] => 1 ≤ bound
  | draft :: more => draft.first ≤ draft.last ∧ draft.last < bound ∧ Stacked draft.first more

theorem Stacked.mono {a b : Nat} {drafts : List Draft} (stacked : Stacked a drafts)
    (le : a ≤ b) : Stacked b drafts := by
  cases drafts with
  | nil => exact Nat.le_trans stacked le
  | cons draft more => exact ⟨stacked.1, Nat.lt_of_lt_of_le stacked.2.1 le, stacked.2.2⟩

theorem Stacked.one_le {bound : Nat} {drafts : List Draft} (stacked : Stacked bound drafts) :
    1 ≤ bound := by
  induction drafts generalizing bound with
  | nil => exact stacked
  | cons draft more ih =>
      obtain ⟨order, before, later⟩ := stacked
      exact Nat.le_trans (ih later) (Nat.le_trans order (Nat.le_of_lt before))

/-- A mark for a blank line moves nothing. -/
theorem Stacked.setBlank {bound : Nat} {draft : Draft} {more : List Draft}
    (stacked : Stacked bound (draft :: more)) : Stacked bound (draft.setBlank :: more) := by
  cases draft
  exact stacked

theorem Stacked.ordered {bound : Nat} {drafts : List Draft} (stacked : Stacked bound drafts) :
    (∀ draft ∈ drafts, 1 ≤ draft.first ∧ draft.first ≤ draft.last ∧ draft.last < bound) ∧
      drafts.Pairwise fun later earlier => earlier.last < later.first := by
  induction drafts generalizing bound with
  | nil => exact ⟨List.forall_mem_nil _, .nil⟩
  | cons draft more ih =>
      obtain ⟨order, before, later⟩ := stacked
      obtain ⟨placed, apart⟩ := ih later
      refine ⟨List.forall_mem_cons.2 ⟨⟨later.one_le, order, before⟩, fun other mem => ?_⟩,
        .cons (fun other mem => (placed other mem).2.2) apart⟩
      obtain ⟨begins, ordered, behind⟩ := placed other mem
      exact ⟨begins, ordered, Nat.lt_trans behind (Nat.lt_of_le_of_lt order before)⟩

end Draft

namespace OpenBlock

/-- The number of lines that a table may leave to the paragraph before it. -/
def breaks (block : OpenBlock) : Nat :=
  match block.shape with
  | .paragraph content _ => content.count '\n'
  | _ => 0

/--
A block has begun by a line, and its text and the drafts inside it lie before
another one.  The text counts since a table may begin on the last line of a
paragraph.
-/
structure Sound (latest bound : Nat) (block : OpenBlock) : Prop where
  begun : block.first ≤ latest
  reaches : block.first + block.breaks ≤ bound
  inside : Draft.Stacked bound block.inside

theorem Sound.mono {a b c d : Nat} {block : OpenBlock} (sound : block.Sound a b) (latest : a ≤ c)
    (bound : b ≤ d) : block.Sound c d :=
  ⟨Nat.le_trans sound.begun latest, Nat.le_trans sound.reaches bound, sound.inside.mono bound⟩

@[simp] theorem first_push? (block : OpenBlock) (draft? : Option Draft) :
    (block.push? draft?).first = block.first := by
  cases draft? <;> rfl

@[simp] theorem shape_push? (block : OpenBlock) (draft? : Option Draft) :
    (block.push? draft?).shape = block.shape := by
  cases draft? <;> rfl

theorem breaks_append_le (block : OpenBlock) (text : List Char) :
    (block.append text).breaks ≤ block.breaks + text.count '\n' := by
  rw [breaks, breaks, append]
  cases block.shape with
  | paragraph content noTable => exact Nat.le_of_eq List.count_append
  | _ => exact Nat.zero_le _

theorem breaks_append_of_not_isParagraph {block : OpenBlock} (other : block.isParagraph = false)
    (text : List Char) : (block.append text).breaks = 0 := by
  rw [isParagraph] at other
  rw [breaks, append]
  cases shape : block.shape with
  | paragraph content noTable =>
      rw [shape] at other
      cases other
  | _ => rfl

/-- Blocks that are the same apart from marks for blank lines. -/
structure Alike (a b : OpenBlock) : Prop where
  first : b.first = a.first
  shape : b.shape = a.shape
  inside : ∀ bound, Draft.Stacked bound a.inside → Draft.Stacked bound b.inside

theorem Alike.sound {latest bound : Nat} {a b : OpenBlock} (alike : a.Alike b)
    (sound : a.Sound latest bound) : b.Sound latest bound := by
  refine ⟨alike.first ▸ sound.begun, ?_, alike.inside bound sound.inside⟩
  rw [breaks, alike.first, alike.shape]
  exact sound.reaches

theorem exists_alike_of_mem {blocks blocks' : List OpenBlock} {block : OpenBlock}
    (same : List.Forall₂ Alike blocks blocks') (mem : block ∈ blocks') :
    ∃ older ∈ blocks, older.Alike block := by
  induction same with
  | nil => cases mem
  | @cons older block' more more' here _ ih =>
      rcases List.mem_cons.1 mem with rfl | mem
      · exact ⟨older, List.mem_cons_self, here⟩
      · obtain ⟨found, isFound, alike⟩ := ih mem
        exact ⟨found, List.mem_cons_of_mem _ isFound, alike⟩

/-- What closing a block leaves covers the lines from the first one of the block on. -/
theorem lines_of_close {block : OpenBlock} {definitions : Definitions} {last : Nat} {tight : Bool}
    {draft : Draft} (closed : draft ∈ (block.close definitions last tight).1) :
    draft.first = block.first ∧ draft.last = last := by
  rw [close] at closed
  split at closed
  · dsimp only at closed
    split at closed
    · cases closed
    · cases closed
      exact ⟨rfl, rfl⟩
  · cases closed
    exact ⟨rfl, rfl⟩

end OpenBlock

theorem lines_of_closeChain {definitions : Definitions} {last : Nat} {block : OpenBlock}
    {inner : List OpenBlock} {draft : Draft}
    (closed : draft ∈ (closeChain definitions last (block :: inner)).1) :
    draft.first = block.first ∧ draft.last = last := by
  have lines := OpenBlock.lines_of_close closed
  rwa [OpenBlock.first_push?] at lines

/-! ## Chains of open blocks -/

/-- Open blocks, outermost first, each beginning behind the drafts in the one before it. -/
structure Laid (latest bound : Nat) (chain : List OpenBlock) : Prop where
  sound : ∀ block ∈ chain, block.Sound latest bound
  nested : chain.IsChain fun outer inner => Draft.Stacked inner.first outer.inside

namespace Laid

variable {latest bound : Nat}

theorem mono {a b c d : Nat} {chain : List OpenBlock} (laid : Laid a b chain) (latest : a ≤ c)
    (bound : b ≤ d) : Laid c d chain :=
  ⟨fun block mem => (laid.sound block mem).mono latest bound, laid.nested⟩

theorem singleton {block : OpenBlock} (sound : block.Sound latest bound) :
    Laid latest bound [block] :=
  ⟨List.forall_mem_singleton.2 sound, .singleton block⟩

theorem cons {block inner : OpenBlock} {more : List OpenBlock} (sound : block.Sound latest bound)
    (before : Draft.Stacked inner.first block.inside) (laid : Laid latest bound (inner :: more)) :
    Laid latest bound (block :: inner :: more) :=
  ⟨List.forall_mem_cons.2 ⟨sound, laid.sound⟩, List.isChain_cons_cons.2 ⟨before, laid.nested⟩⟩

theorem of_cons {block : OpenBlock} {more : List OpenBlock}
    (laid : Laid latest bound (block :: more)) : Laid latest bound more :=
  ⟨fun b mem => laid.sound b (List.mem_cons_of_mem _ mem), laid.nested.of_cons⟩

theorem before {block inner : OpenBlock} {more : List OpenBlock}
    (laid : Laid latest bound (block :: inner :: more)) :
    Draft.Stacked inner.first block.inside :=
  (List.isChain_cons_cons.1 laid.nested).1

theorem right_of_append {outer chain : List OpenBlock} (laid : Laid latest bound (outer ++ chain)) :
    Laid latest bound chain :=
  ⟨fun block mem => laid.sound block (List.mem_append_right outer mem),
    laid.nested.right_of_append⟩

/-- Blocks from one on may give way to others that begin where it does. -/
theorem graft {outer rest more : List OpenBlock} {block block' : OpenBlock}
    (laid : Laid latest bound (outer ++ block :: rest)) {latest' bound' : Nat}
    (replaced : Laid latest' bound' (block' :: more)) (same : block'.first = block.first)
    (latest_le : latest ≤ latest') (bound_le : bound ≤ bound') :
    Laid latest' bound' (outer ++ block' :: more) := by
  constructor
  · intro b mem
    rcases List.mem_append.1 mem with mem | mem
    · exact (laid.sound b (List.mem_append_left _ mem)).mono latest_le bound_le
    · exact replaced.sound b mem
  · have nested := laid.nested
    rw [List.isChain_append] at nested ⊢
    refine ⟨nested.1, replaced.nested, ?_⟩
    rintro x isLast y isFirst
    cases isFirst
    rw [same]
    exact nested.2.2 x isLast block rfl

/-- The first block may give way to one that holds no drafts further behind. -/
theorem head {block block' : OpenBlock} {rest : List OpenBlock}
    (laid : Laid latest bound (block :: rest)) (sound : block'.Sound latest bound)
    (inside : ∀ line, Draft.Stacked line block.inside → Draft.Stacked line block'.inside) :
    Laid latest bound (block' :: rest) := by
  cases rest with
  | nil => exact .singleton sound
  | cons inner rest => exact .cons sound (inside inner.first laid.before) laid.of_cons

/-- A block may change what it is when its lines and the drafts inside it stay. -/
theorem alter {outer rest : List OpenBlock} {block block' : OpenBlock}
    (laid : Laid latest bound (outer ++ block :: rest)) (first : block'.first = block.first)
    (inside : block'.inside = block.inside) (reaches : block'.first + block'.breaks ≤ bound) :
    Laid latest bound (outer ++ block' :: rest) := by
  have sound := laid.sound block (List.mem_append_right _ List.mem_cons_self)
  have altered : block'.Sound latest bound :=
    ⟨first ▸ sound.begun, reaches, inside ▸ sound.inside⟩
  exact laid.graft (laid.right_of_append.head altered fun _ stacked => inside ▸ stacked) first
    (Nat.le_refl _) (Nat.le_refl _)

theorem alike {chain chain' : List OpenBlock} (laid : Laid latest bound chain)
    (same : List.Forall₂ OpenBlock.Alike chain chain') : Laid latest bound chain' := by
  induction same with
  | nil => exact laid
  | @cons block block' more more' here later ih =>
      have sound := here.sound (laid.sound block List.mem_cons_self)
      cases later with
      | nil => exact .singleton sound
      | cons next later =>
          exact .cons sound (next.first ▸ here.inside _ laid.before) (ih laid.of_cons)

/-- A draft that begins where a block did may take its place in the block around it. -/
theorem push {outer rest : List OpenBlock} {container block : OpenBlock}
    (laid : Laid latest bound (outer ++ container :: block :: rest)) {draft : Draft}
    {bound' : Nat} (first : draft.first = block.first) (order : block.first ≤ draft.last)
    (before : draft.last < bound') (bound_le : bound ≤ bound') :
    Laid latest bound' (outer ++ [container.push draft]) := by
  have sound := laid.sound container (List.mem_append_right _ List.mem_cons_self)
  refine laid.graft (.singleton ⟨sound.begun, Nat.le_trans sound.reaches bound_le, ?_⟩) rfl
    (Nat.le_refl _) bound_le
  exact ⟨first ▸ order, before, first ▸ laid.right_of_append.before⟩

theorem push? {outer rest : List OpenBlock} {container block : OpenBlock}
    (laid : Laid latest bound (outer ++ container :: block :: rest)) {draft? : Option Draft}
    {last bound' : Nat} (lines : ∀ draft ∈ draft?, draft.first = block.first ∧ draft.last = last)
    (order : block.first ≤ last) (before : last < bound') (bound_le : bound ≤ bound') :
    Laid latest bound' (outer ++ [container.push? draft?]) := by
  cases draft? with
  | none =>
      have sound := laid.sound container (List.mem_append_right _ List.mem_cons_self)
      exact laid.graft (.singleton (sound.mono (Nat.le_refl _) bound_le)) rfl (Nat.le_refl _)
        bound_le
  | some draft =>
      obtain ⟨first, rfl⟩ := lines draft rfl
      exact laid.push first order before bound_le

/-- A draft and a block behind it may take the place of a block. -/
theorem divide {outer rest : List OpenBlock} {container block later : OpenBlock}
    (laid : Laid latest bound (outer ++ container :: block :: rest)) {draft : Draft}
    (behind : Laid latest bound (later :: rest)) (first : draft.first = block.first)
    (order : draft.first ≤ draft.last) (before : draft.last < later.first) :
    Laid latest bound (outer ++ container.push draft :: later :: rest) := by
  have sound := laid.sound container (List.mem_append_right _ List.mem_cons_self)
  have stacked : Draft.Stacked later.first (container.push draft).inside :=
    ⟨order, before, first ▸ laid.right_of_append.before⟩
  have fits : later.first ≤ bound :=
    Nat.le_trans (Nat.le_add_right _ _) (behind.sound later List.mem_cons_self).reaches
  exact laid.graft (.cons ⟨sound.begun, sound.reaches, stacked.mono fits⟩ stacked behind) rfl
    (Nat.le_refl _) (Nat.le_refl _)

end Laid

end Markdown

end UiMarkdown
