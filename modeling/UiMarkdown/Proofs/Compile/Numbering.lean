import Mathlib.Data.List.Nodup
import Mathlib.Data.List.Range
import UiMarkdown.Proofs.Compile.Walk
import UiMarkdown.Proofs.Mask.Token

/-!
# Ids count the nodes

A node gets its id when it is met, but enters the tree only when what it stands in
is closed.  All that a stack holds is in document order all the same, and its ids
are the first ones: this holds of the empty stack and every step keeps it.
-/

namespace UiMarkdown

namespace Node

mutual

def ids : Node → List String
  | .passage id _ | .leaf id _ _ | .code id _ _ => [id]
  | .container id _ children => id :: idsOfAll children

def idsOfAll : List Node → List String
  | [] => []
  | node :: more => ids node ++ idsOfAll more

end

mutual

def size : Node → Nat
  | .passage _ _ | .leaf _ _ _ | .code _ _ _ => 1
  | .container _ _ children => sizeOfAll children + 1

def sizeOfAll : List Node → Nat
  | [] => 0
  | node :: more => size node + sizeOfAll more

end

mutual

theorem length_ids : (node : Node) → node.ids.length = node.size
  | .passage _ _ | .leaf _ _ _ | .code _ _ _ => by
      rw [ids, size, List.length_singleton]
  | .container _ _ children => by
      rw [ids, size, List.length_cons, length_idsOfAll children]

theorem length_idsOfAll : (nodes : List Node) → (idsOfAll nodes).length = sizeOfAll nodes
  | [] => by
      rw [idsOfAll, sizeOfAll, List.length_nil]
  | node :: more => by
      rw [idsOfAll, sizeOfAll, List.length_append, length_ids node, length_idsOfAll more]

end

theorem idsOfAll_append (nodes more : List Node) :
    idsOfAll (nodes ++ more) = idsOfAll nodes ++ idsOfAll more := by
  induction nodes with
  | nil => rw [idsOfAll, List.nil_append, List.nil_append]
  | cons node nodes ih => rw [List.cons_append, idsOfAll, idsOfAll, ih, List.append_assoc]

theorem idsOfAll_singleton (node : Node) : idsOfAll [node] = node.ids := by
  rw [idsOfAll, idsOfAll, List.append_nil]

theorem idOf_injective : Function.Injective idOf := by
  intro a b same
  have digits : Nat.toDigits 10 a = Nat.toDigits 10 b := by
    have lists := congrArg String.toList same
    rw [idOf, idOf, String.toList_append, String.toList_append] at lists
    have digits := List.append_cancel_left lists
    rwa [String.toList_ofList, String.toList_ofList] at digits
  rw [← Mask.digitsValue_toDigits a, digits, Mask.digitsValue_toDigits]

end Node

namespace Stack

/-- The ids of what stands before the innermost open container, and its own. -/
def openIds : List OpenContainer → List String
  | [] => []
  | container :: more =>
      openIds more ++ (Node.idsOfAll container.before.reverse ++ [container.id])

def ids (stack : Stack) : List String :=
  openIds stack.containers ++ Node.idsOfAll stack.nodes.reverse

/-- The ids that a stack holds are the first ones, each of them once and in order. -/
def Numbered (stack : Stack) : Prop :=
  stack.ids = (List.range' 1 stack.count).map Node.idOf

theorem numbered_empty : ({} : Stack).Numbered :=
  rfl

/-- A step that adds the next id behind those before keeps the numbering. -/
theorem Numbered.next {stack grown : Stack} (numbered : stack.Numbered)
    (count : grown.count = stack.count + 1) (ids : grown.ids = stack.ids ++ [stack.nextId]) :
    grown.Numbered := by
  rw [Numbered, ids, numbered, count, List.range'_1_concat, List.map_append, List.map_singleton,
    nextId, Nat.add_comm 1]

theorem Numbered.add {stack : Stack} (numbered : stack.Numbered) {node : String → Node}
    (childless : (node stack.nextId).ids = [stack.nextId]) : (stack.add node).Numbered := by
  refine numbered.next rfl ?_
  rw [Stack.add, ids, ids, List.reverse_cons, Node.idsOfAll_append, Node.idsOfAll_singleton,
    childless, List.append_assoc]

theorem Numbered.openFrame {stack : Stack} (numbered : stack.Numbered) (frame : Frame) :
    (stack.openFrame frame).Numbered := by
  refine numbered.next rfl ?_
  rw [Stack.openFrame, ids, ids, openIds, List.reverse_nil, Node.idsOfAll, List.append_nil,
    List.append_assoc]

/-- A container that closes moves behind the nodes before it, with its nodes after its id. -/
theorem openIds_cons (container : OpenContainer) (more : List OpenContainer)
    (nodes : List Node) :
    openIds (container :: more) ++ Node.idsOfAll nodes.reverse =
      openIds more ++ Node.idsOfAll
        (.container container.id container.frame nodes.reverse :: container.before).reverse := by
  rw [openIds, List.reverse_cons, Node.idsOfAll_append, Node.idsOfAll_singleton, Node.ids]
  simp only [List.append_assoc, List.singleton_append]

theorem Numbered.close {stack : Stack} (numbered : stack.Numbered) : stack.close.Numbered := by
  rw [Stack.close]
  split
  · exact numbered
  · rename_i container more containers
    rw [Numbered, ids, containers, openIds_cons] at numbered
    exact numbered

theorem idsOfAll_closeAll (nodes : List Node) (containers : List OpenContainer) :
    Node.idsOfAll (closeAll nodes containers).reverse =
      openIds containers ++ Node.idsOfAll nodes.reverse := by
  induction containers generalizing nodes with
  | nil => rw [closeAll, openIds, List.nil_append]
  | cons container more ih => rw [closeAll, ih, openIds_cons]

/-- Closing what is still open adds no ids and moves none. -/
theorem idsOfAll_finish (stack : Stack) : Node.idsOfAll stack.finish = stack.ids :=
  idsOfAll_closeAll stack.nodes stack.containers

end Stack

namespace Body

theorem numbered_flush {body : Body} {stack flushed : Stack} {run : List Markdown.Placed}
    (numbered : stack.Numbered) (done : body.flush stack run = .ok flushed) :
    flushed.Numbered := by
  rw [flush] at done
  split at done
  · cases done
    exact numbered
  · cases passage : body.passage? run with
    | error error =>
        rw [passage] at done
        cases done
    | ok found =>
        rw [passage] at done
        cases found with
        | none =>
            cases done
            exact numbered
        | some p =>
            cases done
            exact numbered.add rfl

theorem numbered_applyFence (body : Body) {stack : Stack} (numbered : stack.Numbered)
    (directive : Directive) (source : List Char) :
    (body.applyFence stack directive source).Numbered := by
  cases directive with
  | leaf kind => exact numbered.add rfl
  | opening kind => exact numbered.openFrame _
  | closing kind => exact numbered.close
  | code info => exact numbered.add rfl

theorem numbered_build {body : Body} {stack built : Stack} {run : List Markdown.Placed}
    {parts : List Part} (numbered : stack.Numbered)
    (done : body.build stack run parts = .ok built) : built.Numbered := by
  induction parts generalizing stack run with
  | nil => exact numbered_flush numbered done
  | cons part more ih =>
      cases part with
      | plain block => exact ih numbered done
      | fence directive source =>
          cases stray : (Part.fence directive source).isStray stack.containers.length with
          | true =>
              rw [build_stray more stray] at done
              exact ih numbered done
          | false =>
              rw [build_fence more stray] at done
              cases ended : body.flush stack run.reverse with
              | error error =>
                  rw [ended] at done
                  cases done
              | ok flushed =>
                  rw [ended] at done
                  have fenced := body.numbered_applyFence (numbered_flush numbered ended)
                    directive source
                  exact ih fenced done

/-- The ids in the tree of any blocks are the first ones, in document order. -/
theorem idsOfAll_treeOf {body : Body} {blocks : List Markdown.Placed} {tree : List Node}
    (built : body.treeOf blocks = .ok tree) :
    Node.idsOfAll tree = (List.range' 1 (Node.sizeOfAll tree)).map Node.idOf := by
  rw [treeOf] at built
  cases grown : body.build {} [] (blocks.map body.partOf) with
  | error error =>
      rw [grown] at built
      cases built
  | ok stack =>
      rw [grown] at built
      cases built
      have numbered := numbered_build Stack.numbered_empty grown
      rw [Stack.Numbered, ← Stack.idsOfAll_finish] at numbered
      have size : Node.sizeOfAll stack.finish = stack.count := by
        rw [← Node.length_idsOfAll, numbered, List.length_map, List.length_range']
      rw [numbered, size]

end Body

namespace Node

/--
In the tree of a body the ids are `n1`, `n2` and so on up to the number of nodes, in
document order, each of them once.
-/
theorem ids_enumerate {options : CompileOptions} {mask : Mask} {masked document : List Char}
    {tree : List Node} (built : ofBody options mask masked document = .ok tree) :
    idsOfAll tree = (List.range' 1 (sizeOfAll tree)).map (fun number => "n" ++ toString number) ∧
      (idsOfAll tree).Nodup := by
  have numbered : idsOfAll tree = (List.range' 1 (sizeOfAll tree)).map idOf :=
    Body.idsOfAll_treeOf built
  refine ⟨numbered, ?_⟩
  rw [numbered]
  exact List.Nodup.map idOf_injective List.nodup_range'

/-- A closing fence too many, a container in a container, and both of them left open. -/
theorem ids_enumerate_unclosed :
    let body := "a\n\n```each.end\n```\n\n```hstack.start\n```\n\nb\n\n```each\n```\n\nc\n".toList
    let tree := ((ofBody {} ⟨[], []⟩ body body).toOption).getD []
    ofBody {} ⟨[], []⟩ body body = .ok tree ∧
      idsOfAll tree = ["n1", "n2", "n3", "n4", "n5"] ∧ (idsOfAll tree).Nodup := by
  intro body tree
  have built : ofBody {} ⟨[], []⟩ body body = .ok tree := by decide +kernel
  have size : sizeOfAll tree = 5 := by decide +kernel
  have numbered := ids_enumerate built
  rw [size] at numbered
  exact ⟨built, numbered⟩

end Node

end UiMarkdown
