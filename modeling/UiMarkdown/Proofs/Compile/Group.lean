import Mathlib.Data.List.Chain
import UiMarkdown.Compile.Tree
import UiMarkdown.Proofs.Markdown.RawHtml

/-!
# Groups of parts

The parts of a body, without the closing fences that find nothing open, are
longest runs of Markdown with fences between them.
-/

namespace UiMarkdown

namespace Part

/-- The raw pieces in a part; what a fence holds is no Html. -/
def rawPieces : Part → List (List Char)
  | .plain placed => placed.block.rawPieces
  | .fence _ _ => []

/-- Whether a part is a closing fence that finds no open container. -/
def isStray (depth : Nat) : Part → Bool
  | .fence (.closing _) _ => depth == 0
  | _ => false

def depthAfter (depth : Nat) : Part → Nat
  | .fence (.opening _) _ => depth + 1
  | .fence (.closing _) _ => depth - 1
  | _ => depth

theorem depthAfter_of_isStray {depth : Nat} {part : Part} (stray : part.isStray depth = true) :
    part.depthAfter depth = depth := by
  cases part with
  | plain block => rfl
  | fence directive source =>
      cases directive with
      | closing kind =>
          rw [isStray, beq_iff_eq] at stray
          rw [depthAfter, stray]
      | _ => cases stray

/-- Parts without the closing fences that find no open container. -/
def withoutStray : (depth : Nat) → List Part → List Part
  | _, [] => []
  | depth, part :: more =>
      (if part.isStray depth then [] else [part]) ++ withoutStray (part.depthAfter depth) more

theorem withoutStray_append (depth : Nat) (parts more : List Part) :
    withoutStray depth (parts ++ more) =
      withoutStray depth parts ++ withoutStray (parts.foldl depthAfter depth) more := by
  induction parts generalizing depth with
  | nil => rw [withoutStray, List.nil_append, List.nil_append, List.foldl_nil]
  | cons part parts ih =>
      rw [List.cons_append, withoutStray, withoutStray, ih, List.foldl_cons, List.append_assoc]

theorem withoutStray_sublist (depth : Nat) (parts : List Part) :
    (withoutStray depth parts).Sublist parts := by
  induction parts generalizing depth with
  | nil => exact .slnil
  | cons part more ih =>
      rw [withoutStray]
      split
      · exact (ih _).cons part
      · exact (ih _).cons_cons part

/-- A part is kept unless it finds no open container where it stands. -/
theorem mem_withoutStray (depth : Nat) (before : List Part) (part : Part) (after : List Part) :
    part ∈ withoutStray depth (before ++ part :: after) ∨
      part.isStray (before.foldl depthAfter depth) = true := by
  rw [withoutStray_append, withoutStray]
  split
  · rename_i stray
    exact .inr stray
  · exact .inl (List.mem_append_right _ List.mem_cons_self)

/-- Where the parts that are kept can be cut, so can the parts themselves. -/
theorem exists_append_of_withoutStray {depth : Nat} {parts first later : List Part}
    (split : withoutStray depth parts = first ++ later) :
    ∃ before after, parts = before ++ after ∧ withoutStray depth before = first ∧
      withoutStray (before.foldl depthAfter depth) after = later := by
  induction parts generalizing depth first with
  | nil =>
      obtain ⟨rfl, rfl⟩ := List.append_eq_nil_iff.1 split.symm
      exact ⟨[], [], rfl, rfl, rfl⟩
  | cons part more ih =>
      cases stray : part.isStray depth with
      | true =>
          rw [withoutStray, stray, if_pos rfl, List.nil_append] at split
          obtain ⟨before, after, rfl, isFirst, isLater⟩ := ih split
          refine ⟨part :: before, after, rfl, ?_, isLater⟩
          rw [withoutStray, stray, if_pos rfl, List.nil_append, isFirst]
      | false =>
          cases first with
          | nil => exact ⟨[], part :: more, rfl, rfl, split⟩
          | cons head first =>
              rw [withoutStray, stray, if_neg Bool.false_ne_true, List.singleton_append,
                List.cons_append, List.cons.injEq] at split
              obtain ⟨rfl, split⟩ := split
              obtain ⟨before, after, rfl, isFirst, isLater⟩ := ih split
              refine ⟨part :: before, after, rfl, ?_, isLater⟩
              rw [withoutStray, stray, if_neg Bool.false_ne_true, isFirst, List.singleton_append]

/-- A run of Markdown blocks, or a fence. -/
inductive Group where
  | run (blocks : List Markdown.Placed)
  | fence (directive : Directive) (source : List Char)
  deriving Repr

namespace Group

def parts : Group → List Part
  | .run blocks => blocks.map .plain
  | .fence directive source => [.fence directive source]

def isRun : Group → Bool
  | .run _ => true
  | .fence _ _ => false

def consBlock (block : Markdown.Placed) : List Group → List Group
  | .run blocks :: rest => .run (block :: blocks) :: rest
  | rest => .run [block] :: rest

end Group

def groups : List Part → List Group
  | [] => []
  | .fence directive source :: more => .fence directive source :: groups more
  | .plain block :: more => Group.consBlock block (groups more)

/-- Groups make up some parts, and every run among them is a longest one. -/
structure LongestRuns (groups : List Group) (parts : List Part) : Prop where
  joined : groups.flatMap Group.parts = parts
  apart : groups.IsChain fun a b => ¬ (a.isRun ∧ b.isRun)
  nonempty : Group.run [] ∉ groups

theorem LongestRuns.consFence {groups : List Group} {parts : List Part}
    (runs : LongestRuns groups parts) (directive : Directive) (source : List Char) :
    LongestRuns (.fence directive source :: groups) (.fence directive source :: parts) where
  joined := by rw [List.flatMap_cons, runs.joined, Group.parts, List.singleton_append]
  apart := by
    rw [List.isChain_cons]
    exact ⟨fun _ _ both => by simp [Group.isRun] at both, runs.apart⟩
  nonempty := by simpa using runs.nonempty

theorem LongestRuns.consBlock {groups : List Group} {parts : List Part}
    (runs : LongestRuns groups parts) (block : Markdown.Placed) :
    LongestRuns (Group.consBlock block groups) (.plain block :: parts) := by
  obtain ⟨joined, apart, nonempty⟩ := runs
  cases groups with
  | nil =>
      refine ⟨?_, .singleton _, by simp [Group.consBlock]⟩
      simpa [Group.consBlock, Group.parts] using joined
  | cons group rest =>
      cases group with
      | run blocks =>
          rw [Group.consBlock]
          refine ⟨by simp [← joined, Group.parts], ?_, ?_⟩
          · rw [List.isChain_cons] at apart ⊢
            exact apart
          · rw [List.mem_cons, not_or] at nonempty ⊢
            exact ⟨by simp, nonempty.2⟩
      | fence directive source =>
          have alone : Group.consBlock block (.fence directive source :: rest) =
              .run [block] :: .fence directive source :: rest := rfl
          rw [alone]
          refine ⟨by simp [← joined, Group.parts], ?_, by simpa using nonempty⟩
          rw [List.isChain_cons]
          exact ⟨by simp [Group.isRun], apart⟩

/-- The groups of parts are their longest runs. -/
theorem longestRuns_groups (parts : List Part) : LongestRuns (groups parts) parts := by
  induction parts with
  | nil => exact ⟨rfl, .nil, List.not_mem_nil⟩
  | cons part more ih =>
      cases part with
      | fence directive source => exact ih.consFence directive source
      | plain block => exact ih.consBlock block

/-- A fence ends the run before it. -/
theorem groups_append_fence (run : List Markdown.Placed) (directive : Directive)
    (source : List Char) (more : List Part) :
    groups (run.map .plain ++ .fence directive source :: more) =
      (if run.isEmpty then [] else [.run run]) ++ .fence directive source :: groups more := by
  induction run with
  | nil => rfl
  | cons block run ih =>
      rw [List.map_cons, List.cons_append, groups, ih]
      cases run <;> rfl

/-- Blocks without a fence are one run. -/
theorem groups_plain (run : List Markdown.Placed) :
    groups (run.map .plain) = if run.isEmpty then [] else [.run run] := by
  induction run with
  | nil => rfl
  | cons block run ih =>
      rw [List.map_cons, groups, ih]
      cases run <;> rfl

end Part

end UiMarkdown
