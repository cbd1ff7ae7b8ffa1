import UiMarkdown.Compile.Fragment
import UiMarkdown.Compile.Options
import UiMarkdown.Compile.Stack
import UiMarkdown.Document.Normal
import UiMarkdown.Document.References
import UiMarkdown.Source.Directive
import UiMarkdown.Source.Fence
import UiMarkdown.Source.Layout
import UiMarkdown.Source.Payload

/-!
# The tree of nodes

The top level blocks of a body are fences, which are nodes or open and close
containers, and blocks of Markdown.  A run of the latter is one passage; a fence
ends it, except one that would close a container where none is open.
-/

namespace UiMarkdown

/-- A part of a body: a fence with what it means and its body, or a block of Markdown. -/
inductive Part where
  | fence (directive : Directive) (body : List Char)
  | plain (block : Markdown.Placed)
  deriving Repr

/--
What the parts of a body are read against: the lines of the masked body, its
mask, and the document in which errors are placed.
-/
structure Body where
  lines : List (List Char)
  mask : Mask
  document : List Char

namespace Body

def partOf (body : Body) (placed : Markdown.Placed) : Part :=
  match placed.block with
  | .code true info literal => .fence (Directive.ofInfo (body.mask.restore info)) literal
  | _ => .plain placed

def payload (body : Body) (source : List Char) : Object :=
  body.mask.restoreObject (Payload.ofBody source)

/-- The lines from the first to the last line of some blocks, without white space at the end. -/
def sourceOf (body : Body) (blocks : List Markdown.Placed) : List Char :=
  match blocks.head?, blocks.getLast? with
  | some first, some last =>
      let start := max first.first 1
      let count := min (max last.last start) body.lines.length + 1 - start
      let lines := (body.lines.drop (start - 1)).take count
      body.mask.restore (Text.trimEnd (['\n'].intercalate lines))
  | _, _ => []

/-- The passage that blocks are, unless they leave neither fragment nor source. -/
def passage? (body : Body) (blocks : List Markdown.Placed) :
    Except CompileError (Option Passage) :=
  match Markdown.Block.toFragments (blocks.map (·.block)) with
  | .error source => .error (.ofHtml (body.mask.restore source) body.document)
  | .ok nodes =>
      let fragment :=
        Fragment.normalize (Fragment.restoreAll body.mask (Fragment.mergeText nodes))
      let source := body.sourceOf blocks
      if fragment.isEmpty && source.isEmpty then .ok none
      else
        let text := Fragment.flatten fragment
        .ok (some {
          fragment
          text := String.ofList text
          refs := Fragment.references fragment text
          source := String.ofList source })

def flush (body : Body) (stack : Stack) (run : List Markdown.Placed) :
    Except CompileError Stack :=
  if run.isEmpty then .ok stack
  else
    (body.passage? run).map fun
      | some passage => stack.add (.passage · passage)
      | none => stack

def applyFence (body : Body) (stack : Stack) (directive : Directive) (source : List Char) : Stack :=
  match directive with
  | .leaf kind => stack.add (.leaf · kind (body.payload source))
  | .opening kind => stack.openFrame (.ofPayload kind (body.payload source))
  | .closing _ => stack.close
  | .code info => stack.add (.code · info (String.ofList (body.mask.restore source)))

/-- Build nodes from parts; `run` holds the blocks since the last fence, last first. -/
def build (body : Body) (stack : Stack) (run : List Markdown.Placed) :
    List Part → Except CompileError Stack
  | [] => body.flush stack run.reverse
  | .plain block :: more => body.build stack (block :: run) more
  | .fence directive source :: more =>
      match directive, stack.containers with
      | .closing _, [] => body.build stack run more
      | _, _ => do
          let stack ← body.flush stack run.reverse
          body.build (body.applyFence stack directive source) [] more

def treeOf (body : Body) (blocks : List Markdown.Placed) : Except CompileError (List Node) := do
  let stack ← body.build {} [] (blocks.map body.partOf)
  return stack.finish

end Body

def CompileOptions.extensions (options : CompileOptions) : Markdown.Extensions :=
  ⟨options.tables, options.strikethrough, options.tasklists⟩

def Node.ofBody (options : CompileOptions) (mask : Mask) (masked document : List Char) :
    Except CompileError (List Node) :=
  let separated := Fence.separate masked
  let body : Body := { lines := Text.lines separated, mask, document }
  body.treeOf (Markdown.parse options.extensions separated)

end UiMarkdown
