import UiMarkdown.Document.Node

/-!
# The stack of open containers

Nodes come in document order and get their numbers as they come.  A container is
open until a closing fence comes, whatever kind that names, or the text ends.
-/

namespace UiMarkdown

def Node.idOf (number : Nat) : String :=
  "n" ++ String.ofList (Nat.toDigits 10 number)

/-- An open container, with the nodes before it in the container around it, last first. -/
structure OpenContainer where
  id : String
  frame : Frame
  before : List Node
  deriving Repr

/--
A forest of which the last part is under construction: how many nodes have an
id, the nodes in the innermost open container, last first, and the open
containers, innermost first.
-/
structure Stack where
  count : Nat := 0
  nodes : List Node := []
  containers : List OpenContainer := []
  deriving Repr

namespace Stack

def nextId (stack : Stack) : String :=
  Node.idOf (stack.count + 1)

def add (stack : Stack) (node : String → Node) : Stack :=
  { stack with count := stack.count + 1, nodes := node stack.nextId :: stack.nodes }

def openFrame (stack : Stack) (frame : Frame) : Stack where
  count := stack.count + 1
  nodes := []
  containers := ⟨stack.nextId, frame, stack.nodes⟩ :: stack.containers

/-- Close containers, the innermost first, with the nodes in it. -/
def closeAll : (nodes : List Node) → List OpenContainer → List Node
  | nodes, [] => nodes
  | nodes, container :: more =>
      closeAll (.container container.id container.frame nodes.reverse :: container.before) more

def close (stack : Stack) : Stack :=
  match stack.containers with
  | [] => stack
  | container :: more =>
      { stack with
        nodes := .container container.id container.frame stack.nodes.reverse :: container.before
        containers := more }

def finish (stack : Stack) : List Node :=
  (closeAll stack.nodes stack.containers).reverse

end Stack

end UiMarkdown
