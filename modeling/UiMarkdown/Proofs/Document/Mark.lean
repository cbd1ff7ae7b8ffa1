import Mathlib.Data.List.Chain
import UiMarkdown.Document.Node

/-!
# The walk through nodes

Nodes are walked in document order, with a mark before and after the children
of every container.  Where passages stand side by side is seen on the walk.
-/

namespace UiMarkdown

/-- What a walk meets; the mark that closes a container names no kind. -/
inductive Mark where
  | passage (passage : Passage)
  | leaf (kind : Leaf) (data : Object)
  | code (info : CodeInfo) (text : String)
  | opening (frame : Frame)
  | closing
  deriving DecidableEq, Repr

def Mark.isPassage : Mark → Bool
  | .passage _ => true
  | _ => false

namespace Node

mutual

def marks : Node → List Mark
  | .passage _ p => [.passage p]
  | .leaf _ kind data => [.leaf kind data]
  | .code _ info text => [.code info text]
  | .container _ frame children => .opening frame :: marksOfAll children ++ [.closing]

def marksOfAll : List Node → List Mark
  | [] => []
  | node :: more => marks node ++ marksOfAll more

end

@[simp] theorem marksOfAll_nil : marksOfAll [] = [] := by
  rw [marksOfAll]

@[simp] theorem marksOfAll_cons (node : Node) (more : List Node) :
    marksOfAll (node :: more) = node.marks ++ marksOfAll more := by
  rw [marksOfAll]

@[simp] theorem marksOfAll_append (nodes more : List Node) :
    marksOfAll (nodes ++ more) = marksOfAll nodes ++ marksOfAll more := by
  induction nodes with
  | nil => simp
  | cons node nodes ih => simp [ih]

def isPassage : Node → Bool
  | .passage _ _ => true
  | _ => false

mutual

/-- No two passages stand side by side inside a node. -/
def Spaced : Node → Prop
  | .container _ _ children => SpacedAll children
  | .passage _ _ | .leaf _ _ _ | .code _ _ _ => True

def SpacedAll : List Node → Prop
  | [] => True
  | node :: more =>
      Spaced node ∧ (∀ next ∈ more.head?, ¬ (node.isPassage ∧ next.isPassage)) ∧ SpacedAll more

end

end Node

/-! ## Passages stand apart -/

/-- Two marks are not both passages. -/
def Mark.Apart (a b : Mark) : Prop :=
  ¬ (a.isPassage ∧ b.isPassage)

namespace Node

mutual

/-- If no two marks of a node are neighbouring passages, none stand side by side inside it. -/
theorem spaced_of_marks :
    (node : Node) → node.marks.IsChain Mark.Apart → node.Spaced
  | .passage _ _, _ | .leaf _ _ _, _ | .code _ _ _, _ => trivial
  | .container _ _ children, apart => by
      rw [marks, List.cons_append] at apart
      rw [Spaced]
      exact spacedAll_of_marks children apart.of_cons.left_of_append

/-- If no two marks of nodes are neighbouring passages, none stand side by side. -/
theorem spacedAll_of_marks :
    (nodes : List Node) → (marksOfAll nodes).IsChain Mark.Apart → SpacedAll nodes
  | [], _ => trivial
  | node :: more, apart => by
      rw [marksOfAll_cons] at apart
      rw [SpacedAll]
      refine ⟨spaced_of_marks node apart.left_of_append, ?_,
        spacedAll_of_marks more apart.right_of_append⟩
      rintro next head ⟨here, there⟩
      obtain ⟨rest, rfl⟩ : ∃ rest, more = next :: rest := by
        cases more <;> cases head
        exact ⟨_, rfl⟩
      cases node <;> cases here
      cases next <;> cases there
      rw [marksOfAll_cons, marks, marks, List.singleton_append, List.singleton_append,
        List.isChain_cons] at apart
      exact apart.1 _ rfl ⟨rfl, rfl⟩

end

/-- The last mark of a node is a passage only if the node is. -/
theorem isPassage_of_getLast?_marks {node : Node} {mark : Mark}
    (isLast : mark ∈ node.marks.getLast?) (passage : mark.isPassage) : node.isPassage := by
  cases node with
  | passage _ _ => rfl
  | leaf _ _ _ | code _ _ _ =>
      rw [marks] at isLast
      cases isLast
      cases passage
  | container _ _ _ =>
      rw [marks, List.getLast?_concat] at isLast
      cases isLast
      cases passage

/-- The first mark of nodes is a passage only if the first node is. -/
theorem isPassage_of_head?_marksOfAll {nodes : List Node} {mark : Mark}
    (isFirst : mark ∈ (marksOfAll nodes).head?) (passage : mark.isPassage) :
    ∃ next ∈ nodes.head?, next.isPassage := by
  cases nodes with
  | nil => cases isFirst
  | cons node more =>
      refine ⟨node, rfl, ?_⟩
      cases node with
      | passage _ _ => rfl
      | leaf _ _ _ | code _ _ _ | container _ _ _ =>
          rw [marksOfAll_cons, marks] at isFirst
          cases isFirst
          cases passage

mutual

/-- If no passages stand side by side inside a node, none are neighbours on the walk. -/
theorem marks_of_spaced : (node : Node) → node.Spaced → node.marks.IsChain Mark.Apart
  | .passage _ _, _ | .leaf _ _ _, _ | .code _ _ _, _ => by
      rw [marks]
      exact .singleton _
  | .container _ _ children, spaced => by
      rw [Spaced] at spaced
      rw [marks, List.cons_append, List.isChain_cons, List.isChain_append]
      refine ⟨fun _ _ both => absurd both.1 Bool.false_ne_true,
        marksOfAll_of_spacedAll children spaced, .singleton _, ?_⟩
      rintro last - ending ⟨⟩ both
      exact absurd both.2 Bool.false_ne_true

/-- If no passages stand side by side, none are neighbours on the walk. -/
theorem marksOfAll_of_spacedAll :
    (nodes : List Node) → SpacedAll nodes → (marksOfAll nodes).IsChain Mark.Apart
  | [], _ => by
      rw [marksOfAll_nil]
      exact .nil
  | node :: more, spaced => by
      rw [SpacedAll] at spaced
      rw [marksOfAll_cons, List.isChain_append]
      refine ⟨marks_of_spaced node spaced.1, marksOfAll_of_spacedAll more spaced.2.2, ?_⟩
      rintro last isLast first isFirst ⟨here, there⟩
      obtain ⟨next, head, passage⟩ := isPassage_of_head?_marksOfAll isFirst there
      exact spaced.2.1 next head ⟨isPassage_of_getLast?_marks isLast here, passage⟩

end

end Node

end UiMarkdown
