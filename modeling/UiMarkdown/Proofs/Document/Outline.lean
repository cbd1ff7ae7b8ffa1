import UiMarkdown.Proofs.Document.Ids
import UiMarkdown.Source.Layout

/-!
# Outlines of nodes

The outline of nodes is their nesting, their order and their kinds, and all of
the code samples.  It is seen on the walk, mark by mark.
-/

namespace UiMarkdown

/-- A passage of which nothing is said. -/
def Passage.bare : Passage :=
  ⟨[], "", [], ""⟩

/-- A frame of which only the kind is said. -/
def Frame.bare (frame : Frame) : Frame :=
  .ofPayload frame.container []

theorem Frame.container_ofPayload (kind : Container) (payload : Object) :
    (ofPayload kind payload).container = kind := by
  cases kind <;> rfl

/-- The kind of a mark, and all of a code sample. -/
def Mark.outline : Mark → Mark
  | .passage _ => .passage .bare
  | .leaf kind _ => .leaf kind []
  | .code info text => .code info text
  | .opening frame => .opening frame.bare
  | .closing => .closing

namespace Node

mutual

/-- The kind of a node, the outlines of the nodes inside it, and all of a code sample. -/
def outline : Node → Node
  | .passage _ _ => .passage "" .bare
  | .leaf _ kind _ => .leaf "" kind []
  | .code _ info text => .code "" info text
  | .container _ frame children => .container "" frame.bare (outlineOfAll children)

def outlineOfAll : List Node → List Node
  | [] => []
  | node :: more => outline node :: outlineOfAll more

end

mutual

theorem marks_outline : (node : Node) → node.outline.marks = node.marks.map Mark.outline
  | .passage _ _ | .leaf _ _ _ | .code _ _ _ => by
      rw [outline, marks, marks, List.map_singleton, Mark.outline]
  | .container _ _ children => by
      rw [outline, marks, marks, marksOfAll_outlineOfAll children]
      simp [Mark.outline]

theorem marksOfAll_outlineOfAll : (nodes : List Node) →
    marksOfAll (outlineOfAll nodes) = (marksOfAll nodes).map Mark.outline
  | [] => by rw [outlineOfAll, marksOfAll_nil, List.map_nil]
  | node :: more => by
      rw [outlineOfAll, marksOfAll_cons, marksOfAll_cons, List.map_append, marks_outline node,
        marksOfAll_outlineOfAll more]

end

mutual

theorem clearId_outline : (node : Node) → node.outline.clearId = node.outline
  | .passage _ _ | .leaf _ _ _ | .code _ _ _ => by rw [outline, clearId]
  | .container _ _ children => by rw [outline, clearId, clearIds_outlineOfAll children]

theorem clearIds_outlineOfAll : (nodes : List Node) →
    clearIds (outlineOfAll nodes) = outlineOfAll nodes
  | [] => by rw [outlineOfAll, clearIds]
  | node :: more => by
      rw [outlineOfAll, clearIds, clearId_outline node, clearIds_outlineOfAll more]

end

/-- Outlines are the same exactly when the walks are, mark by mark. -/
theorem outlineOfAll_eq_iff_marks (as bs : List Node) :
    outlineOfAll as = outlineOfAll bs ↔
      (marksOfAll as).map Mark.outline = (marksOfAll bs).map Mark.outline := by
  rw [← marksOfAll_outlineOfAll, ← marksOfAll_outlineOfAll, ← clearIds_eq_iff_marks,
    clearIds_outlineOfAll, clearIds_outlineOfAll]

end Node

end UiMarkdown
