import UiMarkdown.Document.Fragment

/-!
# Documents

A document is its metadata and a forest of nodes.  A node is a passage of
Markdown, a leaf, an opaque code sample, or a container with nodes inside.
-/

namespace UiMarkdown

inductive Leaf where
  | button
  | input
  | markdownEditor
  | markdownViewer
  deriving DecidableEq, Repr

inductive Container where
  | hstack
  | vstack
  | each
  deriving DecidableEq, Repr

/-- A passage of Markdown: its fragment, plain text, references and source. -/
structure Passage where
  fragment : List Fragment
  text : String
  refs : List String
  source : String
  deriving DecidableEq, Repr

/-- The language of a code sample and what follows it on the fence. -/
structure CodeInfo where
  lang : String
  extra : Option String
  deriving DecidableEq, Repr

/-- A loop: the values it runs over, the name of the current one, and further data. -/
structure Loop where
  source : String
  name : String
  extra : Object
  deriving DecidableEq, Repr

inductive Frame where
  | hstack (data : Object)
  | vstack (data : Object)
  | each (loop : Loop)
  deriving DecidableEq, Repr

def Frame.container : Frame → Container
  | .hstack _ => .hstack
  | .vstack _ => .vstack
  | .each _ => .each

inductive Node where
  | passage (id : String) (passage : Passage)
  | leaf (id : String) (kind : Leaf) (data : Object)
  | code (id : String) (info : CodeInfo) (text : String)
  | container (id : String) (frame : Frame) (children : List Node)
  deriving Repr

namespace Node

def id : Node → String
  | .passage id _ | .leaf id _ _ | .code id _ _ | .container id _ _ => id

def typeName : Node → String
  | .passage _ _ => "markdown"
  | .leaf _ .button _ => "button"
  | .leaf _ .input _ => "input"
  | .leaf _ .markdownEditor _ => "markdown_editor"
  | .leaf _ .markdownViewer _ => "markdown_viewer"
  | .code _ _ _ => "literal_code"
  | .container _ (.hstack _) _ => "hstack"
  | .container _ (.vstack _) _ => "vstack"
  | .container _ (.each _) _ => "each"

def isContainer : Node → Bool
  | .container _ _ _ => true
  | _ => false

def children : Node → List Node
  | .container _ _ cs => cs
  | _ => []

def refs : Node → List String
  | .passage _ p => p.refs
  | _ => []

def text? : Node → Option String
  | .passage _ p => some p.text
  | .code _ _ text => some text
  | _ => none

def append? (node : Node) : Node → Option Node
  | .container id frame cs => some (.container id frame (cs ++ [node]))
  | _ => none

mutual

def clearId : Node → Node
  | .passage _ p => .passage "" p
  | .leaf _ kind data => .leaf "" kind data
  | .code _ info text => .code "" info text
  | .container _ frame cs => .container "" frame (clearIds cs)

def clearIds : List Node → List Node
  | [] => []
  | node :: more => clearId node :: clearIds more

end

mutual

def same : Node → Node → Bool
  | .passage i p, .passage j q => i == j && decide (p = q)
  | .leaf i k d, .leaf j l e => i == j && decide (k = l) && decide (d = e)
  | .code i a s, .code j b t => i == j && decide (a = b) && s == t
  | .container i f as, .container j g bs => i == j && decide (f = g) && sameAll as bs
  | _, _ => false

def sameAll : List Node → List Node → Bool
  | [], [] => true
  | a :: as, b :: bs => same a b && sameAll as bs
  | _, _ => false

end

mutual

theorem same_self : (node : Node) → same node node = true
  | .passage _ _ | .leaf _ _ _ | .code _ _ _ => by simp [same]
  | .container _ _ cs => by simpa [same] using sameAll_self cs

theorem sameAll_self : (nodes : List Node) → sameAll nodes nodes = true
  | [] => rfl
  | node :: more => by simp [sameAll, same_self node, sameAll_self more]

end

mutual

theorem eq_of_same : (a b : Node) → same a b = true → a = b
  | .passage _ _, b, h => by cases b <;> simp_all [same]
  | .leaf _ _ _, b, h => by cases b <;> simp_all [same]
  | .code _ _ _, b, h => by cases b <;> simp_all [same]
  | .container _ _ as, b, h => by
      cases b <;> simp only [same, Bool.false_eq_true, Bool.and_eq_true, beq_iff_eq,
        decide_eq_true_eq] at h
      rw [h.1.1, h.1.2, eq_of_sameAll as _ h.2]

theorem eq_of_sameAll : (as bs : List Node) → sameAll as bs = true → as = bs
  | [], bs, h => by cases bs <;> simp_all [sameAll]
  | a :: as, bs, h => by
      cases bs with
      | nil => simp [sameAll] at h
      | cons b bs =>
          simp only [sameAll, Bool.and_eq_true] at h
          rw [eq_of_same a b h.1, eq_of_sameAll as bs h.2]

end

instance : DecidableEq Node := fun a b =>
  decidable_of_iff (same a b = true) ⟨eq_of_same a b, fun h => h ▸ same_self a⟩

end Node

/-- The live data that a document reads, each name once, in order of appearance. -/
structure Dependencies where
  queries : List String := []
  globals : List String := []
  deriving DecidableEq, Repr

namespace Dependencies

def addQuery (dependencies : Dependencies) (name : String) : Dependencies :=
  { dependencies with queries := Text.pushNew dependencies.queries name }

def addGlobal (dependencies : Dependencies) (name : String) : Dependencies :=
  { dependencies with globals := Text.pushNew dependencies.globals name }

end Dependencies

/-- The metadata of a document by sections; keys of no section are in `extra`. -/
structure Meta where
  identity : Object := []
  queries : Object := []
  actions : Object := []
  components : Object := []
  events : Object := []
  dependencies : Dependencies := {}
  extra : Object := []
  deriving DecidableEq, Repr

structure Document where
  version : String
  metadata : Meta
  ast : List Node
  deriving DecidableEq, Repr

namespace Document

def currentVersion : String := "1.1.0"

def empty : Document := ⟨currentVersion, {}, []⟩

/--
Put a node at the end of a document, or into the container that is the top level
node with a given number.
-/
def append? (document : Document) (into : Option Nat) (node : Node) : Option Document :=
  match into with
  | none => some { document with ast := document.ast ++ [node] }
  | some n => do
      let target ← document.ast[n]?
      let grown ← node.append? target
      return { document with ast := document.ast.set n grown }

def clearIds (document : Document) : Document :=
  { document with ast := Node.clearIds document.ast }

end Document

end UiMarkdown
