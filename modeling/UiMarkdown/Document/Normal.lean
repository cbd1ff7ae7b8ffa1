import UiMarkdown.Document.Fragment

/-!
# Normal fragments

Two repairs make a fragment normal.  An image whose target holds an expression
may have stayed text; it becomes an image.  And an expression may have been cut
by emphasis; then the whole run of inlines becomes plain text again, cut at the
ends of its expressions.
-/

namespace UiMarkdown

namespace Fragment

/-- Whether a character may stand in the target of an image outside an expression. -/
def isTargetChar (c : Char) : Bool :=
  c != ')' && !Text.isBlank c

/-- The end of a target after its expression, and the text after the closing parenthesis. -/
def readTargetEnd? (s : List Char) : Option (List Char × List Char) :=
  match (s.dropWhile isTargetChar).dropWhile Text.isBlank with
  | ')' :: rest => some (s.takeWhile isTargetChar, rest)
  | _ => none

/--
The rest of a target from within its expression, which ends at the first
closing braces on the line after which the target can end.
-/
def readTargetBody? : List Char → Option (List Char × List Char)
  | [] => none
  | c :: rest =>
      match (Template.closing.isPrefixOf? (c :: rest)).bind readTargetEnd? with
      | some (tail, after) => some (Template.closing ++ tail, after)
      | none =>
          if c == '\n' then none
          else (readTargetBody? rest).map fun (body, after) => (c :: body, after)

/--
A target that holds an expression, and the text after it.  Of several places
where the expression may open, the last one counts.
-/
def readTarget? : List Char → Option (List Char × List Char)
  | [] => none
  | c :: rest =>
      let later := if isTargetChar c then readTarget? rest else none
      match later with
      | some (target, after) => some (c :: target, after)
      | none =>
          match Template.opening.isPrefixOf? (c :: rest) with
          | some inside =>
              (readTargetBody? inside).map fun (body, after) => (Template.opening ++ body, after)
          | none => none

/-- Description and target of an image at the start of a text, and the text after it. -/
def readImage? (s : List Char) : Option (List Char × List Char × List Char) :=
  match s with
  | '!' :: '[' :: rest =>
      let isInside (c : Char) : Bool := c != ']' && c != '\n'
      match rest.dropWhile isInside with
      | ']' :: '(' :: target =>
          (readTarget? (target.dropWhile Text.isBlank)).map fun (url, after) =>
            (rest.takeWhile isInside, url, after)
      | _ => none
  | _ => none

def textNode (s : List Char) : List Fragment :=
  if s.isEmpty then [] else [.text (String.ofList s)]

/--
A text with its images as nodes of their own; `before` is the text since the
last image in reverse.
-/
def splitImagesFrom : (fuel : Nat) → (before : List Char) → List Char → List Fragment
  | 0, before, s => textNode (before.reverse ++ s)
  | _, before, [] => textNode before.reverse
  | fuel + 1, before, c :: rest =>
      match readImage? (c :: rest) with
      | some (alt, url, after) =>
          textNode before.reverse ++
            .image (String.ofList url) none (String.ofList alt) :: splitImagesFrom fuel [] after
      | none => splitImagesFrom fuel (c :: before) rest

def splitImages (s : List Char) : List Fragment :=
  splitImagesFrom s.length [] s

def hasImage : List Char → Bool
  | [] => false
  | c :: rest => (readImage? (c :: rest)).isSome || hasImage rest

def mergeImages (nodes : List Fragment) : List Fragment :=
  nodes.flatMap fun
    | .text value => if hasImage value.toList then splitImages value.toList else [.text value]
    | node => [node]

/-- Whether a node may be flattened to repair an expression. -/
def isMergeable : Fragment → Bool
  | .text _ | .emphasis _ | .strong _ | .delete _ => true
  | _ => false

/-- The byte offsets at which all texts but the first start. -/
def boundaries : (offset : Nat) → List (List Char) → List Nat
  | _, [] => []
  | _, [_] => []
  | offset, s :: more =>
      let offset := offset + Text.byteLength s
      offset :: boundaries offset more

/-- Whether an expression of the joined text lies across the end of a text. -/
def crosses (texts : List (List Char)) : Bool :=
  (Template.ranges texts.flatten).any fun (start, stop) =>
    (boundaries 0 texts).any fun b => start < b && b < stop

/-- Whether a node with markup holds one end of an expression but not the other. -/
def isDangling (node : Fragment) : Bool :=
  match node with
  | .text _ => false
  | node =>
      let text := node.plainText
      Text.occurs Template.opening text != Text.occurs Template.closing text

/-- Flatten a run of inlines in which an expression is cut. -/
def settle (run : List Fragment) : List Fragment :=
  let texts := plainTexts run
  if crosses texts || run.any isDangling then
    (Template.pieces texts.flatten).map fun piece => .text (String.ofList piece.text)
  else run

/-- Settle the runs of a list of nodes, the first of which continues `run`. -/
def settleRuns : (run : List Fragment) → List Fragment → List Fragment
  | run, [] => settle run
  | run, node :: rest =>
      if node.isMergeable then settleRuns (run ++ [node]) rest
      else settle run ++ node :: settleRuns [] rest

def repair (nodes : List Fragment) : List Fragment :=
  settleRuns [] (mergeImages nodes)

mutual

def normalizeNode : Fragment → Fragment
  | .paragraph cs => .paragraph (repair (normalizeEach cs))
  | .heading depth cs => .heading depth (repair (normalizeEach cs))
  | .blockquote cs => .blockquote (repair (normalizeEach cs))
  | .list ordered start spread cs => .list ordered start spread (repair (normalizeEach cs))
  | .listItem checked cs => .listItem checked (repair (normalizeEach cs))
  | .table cs => .table (repair (normalizeEach cs))
  | .tableRow cs => .tableRow (repair (normalizeEach cs))
  | .tableCell cs => .tableCell (repair (normalizeEach cs))
  | .emphasis cs => .emphasis (repair (normalizeEach cs))
  | .strong cs => .strong (repair (normalizeEach cs))
  | .delete cs => .delete (repair (normalizeEach cs))
  | .link url title cs => .link url title (repair (normalizeEach cs))
  | .code lang value => .code lang value
  | .thematicBreak => .thematicBreak
  | .text value => .text value
  | .inlineCode value => .inlineCode value
  | .lineBreak => .lineBreak
  | .image url title alt => .image url title alt

def normalizeEach : List Fragment → List Fragment
  | [] => []
  | node :: more => normalizeNode node :: normalizeEach more

end

def normalize (nodes : List Fragment) : List Fragment :=
  repair (normalizeEach nodes)

end Fragment

end UiMarkdown
