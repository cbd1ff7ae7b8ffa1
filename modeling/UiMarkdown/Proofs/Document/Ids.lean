import UiMarkdown.Document.References
import UiMarkdown.Proofs.Document.Mark
import UiMarkdown.Source.Writer

/-!
# Nodes up to their ids

The marks of nodes are the nodes without their ids: a walk can be read in one
way only.  Neither the dependencies nor the source of a document depend on ids.
-/

namespace UiMarkdown

namespace Mark

/-- What may follow the marks of the nodes in a container: its end or nothing. -/
def ClosesOrEnds : List Mark → Prop
  | [] => True
  | .closing :: _ => True
  | _ => False

theorem closesOrEnds_nil : ClosesOrEnds [] :=
  trivial

theorem closesOrEnds_closing (marks : List Mark) : ClosesOrEnds (.closing :: marks) :=
  trivial

end Mark

namespace Node

mutual

@[simp] theorem marks_clearId : (node : Node) → node.clearId.marks = node.marks
  | .passage _ _ | .leaf _ _ _ | .code _ _ _ => by
      rw [clearId, marks, marks]
  | .container _ _ children => by
      rw [clearId, marks, marks, marksOfAll_clearIds children]

@[simp] theorem marksOfAll_clearIds :
    (nodes : List Node) → marksOfAll (clearIds nodes) = marksOfAll nodes
  | [] => by rw [clearIds]
  | node :: more => by
      rw [clearIds, marksOfAll_cons, marksOfAll_cons, marks_clearId node, marksOfAll_clearIds more]

end

/-- A node that holds no nodes is determined by its mark. -/
theorem clearId_eq_of_marks_append {a b : Node} {as' bs' : List Mark}
    (childless : a.isContainer = false) (same : a.marks ++ as' = b.marks ++ bs') :
    a.clearId = b.clearId ∧ as' = bs' := by
  cases a with
  | container _ _ _ => cases childless
  | passage _ _ | leaf _ _ _ | code _ _ _ =>
      cases b <;> rw [marks, marks] at same <;> cases same
      exact ⟨by rw [clearId, clearId], rfl⟩

/-- The marks of a node start with one that closes nothing. -/
theorem not_closesOrEnds_marks (node : Node) (rest : List Mark) :
    ¬ Mark.ClosesOrEnds (node.marks ++ rest) := by
  intro ends
  cases node <;>
    · rw [marks] at ends
      cases ends

/-- Where the marks of nodes end is seen from what follows, so they are read in one way. -/
theorem clearIds_eq_of_marks_append : (as bs : List Node) → {as' bs' : List Mark} →
    Mark.ClosesOrEnds as' → Mark.ClosesOrEnds bs' →
    marksOfAll as ++ as' = marksOfAll bs ++ bs' → clearIds as = clearIds bs ∧ as' = bs'
  | [], [], as', bs', _, _, same => ⟨rfl, same⟩
  | [], b :: bs, as', bs', endsA, _, same => by
      rw [marksOfAll_nil, List.nil_append, marksOfAll_cons, List.append_assoc] at same
      exact absurd (same ▸ endsA) (not_closesOrEnds_marks b _)
  | a :: as, [], as', bs', _, endsB, same => by
      rw [marksOfAll_nil, List.nil_append, marksOfAll_cons, List.append_assoc] at same
      exact absurd (same.symm ▸ endsB) (not_closesOrEnds_marks a _)
  | .passage _ _ :: as, b :: bs, as', bs', endsA, endsB, same
  | .leaf _ _ _ :: as, b :: bs, as', bs', endsA, endsB, same
  | .code _ _ _ :: as, b :: bs, as', bs', endsA, endsB, same => by
      rw [marksOfAll_cons, marksOfAll_cons, List.append_assoc, List.append_assoc] at same
      obtain ⟨here, later⟩ := clearId_eq_of_marks_append (by rfl) same
      obtain ⟨more, rest⟩ := clearIds_eq_of_marks_append as bs endsA endsB later
      rw [clearIds, clearIds, here, more]
      exact ⟨rfl, rest⟩
  | .container _ frame children :: as, b :: bs, as', bs', endsA, endsB, same => by
      rw [marksOfAll_cons, marksOfAll_cons, marks] at same
      cases b with
      | container _ frame' children' =>
          rw [marks] at same
          simp only [List.cons_append, List.append_assoc] at same
          obtain ⟨here, inside⟩ := List.cons.inj same
          obtain ⟨inner, later⟩ :=
            clearIds_eq_of_marks_append children children' (Mark.closesOrEnds_closing _)
              (Mark.closesOrEnds_closing _) inside
          obtain ⟨more, rest⟩ :=
            clearIds_eq_of_marks_append as bs endsA endsB (List.cons.inj later).2
          rw [clearIds, clearIds, clearId, clearId, Mark.opening.inj here, inner, more]
          exact ⟨rfl, rest⟩
      | passage _ _ | leaf _ _ _ | code _ _ _ =>
          rw [marks] at same
          cases same

/-- Nodes are determined by their marks, ids aside. -/
theorem clearIds_eq_iff_marks (as bs : List Node) :
    clearIds as = clearIds bs ↔ marksOfAll as = marksOfAll bs := by
  constructor
  · intro same
    rw [← marksOfAll_clearIds as, same, marksOfAll_clearIds]
  · intro same
    exact (clearIds_eq_of_marks_append as bs Mark.closesOrEnds_nil Mark.closesOrEnds_nil
      (by rw [same])).1

/-! ## What ids do not matter to -/

mutual

@[simp] theorem blocks_clearId : (node : Node) → node.clearId.blocks = node.blocks
  | .passage _ _ | .leaf _ _ _ | .code _ _ _ => by rw [clearId, blocks, blocks]
  | .container _ _ children => by rw [clearId, blocks, blocks, blocksOfAll_clearIds children]

@[simp] theorem blocksOfAll_clearIds :
    (nodes : List Node) → blocksOfAll (clearIds nodes) = blocksOfAll nodes
  | [] => by rw [clearIds]
  | node :: more => by
      rw [clearIds, blocksOfAll, blocksOfAll, blocks_clearId node, blocksOfAll_clearIds more]

end

end Node

namespace Dependencies

mutual

@[simp] theorem addNode_clearId (aliases : List String) (dependencies : Dependencies) :
    (node : Node) → addNode aliases dependencies node.clearId = addNode aliases dependencies node
  | .passage _ _ | .leaf _ _ _ | .code _ _ _ => by rw [Node.clearId, addNode, addNode]
  | .container _ (.hstack _) children | .container _ (.vstack _) children
  | .container _ (.each _) children => by
      rw [Node.clearId, addNode, addNode, addNodes_clearIds _ _ children]

@[simp] theorem addNodes_clearIds (aliases : List String) (dependencies : Dependencies) :
    (nodes : List Node) →
      addNodes aliases dependencies (Node.clearIds nodes) = addNodes aliases dependencies nodes
  | [] => by rw [Node.clearIds]
  | node :: more => by
      rw [Node.clearIds, addNodes, addNodes, addNode_clearId aliases dependencies node,
        addNodes_clearIds aliases _ more]

end

end Dependencies

namespace Document

/-- The source of a document has no ids in it. -/
theorem write_clearIds (document : Document) : document.clearIds.write = document.write := by
  have body : document.clearIds.bodyText = document.bodyText := by
    rw [bodyText, clearIds, Node.blocksOfAll_clearIds, ← bodyText]
  have head : document.clearIds.headText = document.headText := by
    rw [headText, headText, body]
    rfl
  rw [write, write, body, head]

end Document

end UiMarkdown
