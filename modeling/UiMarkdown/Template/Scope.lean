import UiMarkdown.Template.Expression
import UiMarkdown.Template.Filter
import UiMarkdown.Json.Writer

/-!
# Evaluating expressions

Expressions read from two name spaces.  A reference with the root `queries`
reads a query result, one with the root `globals` a global value, and any other
root is itself the name of a global value.  The first alternative that renders
to nonempty text is the text of an expression; without one it is empty.
-/

namespace UiMarkdown

structure Scope where
  globals : Object := []
  queries : Object := []
  deriving DecidableEq

namespace Scope

def segmentKey : Segment → String
  | .index n => String.ofList (Nat.toDigits 10 n)
  | .key name => name

def segmentPosition? : Segment → Option Nat
  | .index n => some n
  | .key name => Literal.nat? name.toList

def step? (value : Json) (segment : Segment) : Option Json :=
  match value with
  | .arr items => (segmentPosition? segment).bind fun n => items[n]?
  | .obj members => Object.get? members (segmentKey segment)
  | _ => none

def walk? (value : Json) (segments : List Segment) : Option Json :=
  segments.foldlM step? value

def walkObject? (object : Object) : List Segment → Option Json
  | [] => none
  | segment :: rest => (object.get? (segmentKey segment)).bind (walk? · rest)

/-- The value of a reference; `none` when a step is missing. -/
def resolve? (scope : Scope) (reference : Reference) : Option Json :=
  if reference.root == "queries" then walkObject? scope.queries reference.segments
  else if reference.root == "globals" then walkObject? scope.globals reference.segments
  else (scope.globals.get? reference.root).bind (walk? · reference.segments)

def head? (scope : Scope) (head : List Char) : Option Json :=
  match Reference.ofChars? head with
  | some reference =>
      if head == ['t', 'r', 'u', 'e'] then some (.bool true)
      else if head == ['f', 'a', 'l', 's', 'e'] then some (.bool false)
      else scope.resolve? reference
  | none => Expression.literal? head

def applyStage (filters : FilterTable) (value : Json) (stage : List Char) : Json :=
  let (name, arg) := Expression.stage stage
  filters.apply (String.ofList name) value arg

def alternative? (scope : Scope) (filters : FilterTable) (alternative : List Char) :
    Option Json :=
  match Expression.stages alternative with
  | [] => none
  | head :: stages =>
      (scope.head? (Text.trim head)).map fun value => stages.foldl (applyStage filters) value

/-- The text of a value; null has none. -/
def render? : Json → Option (List Char)
  | .null => none
  | .str s => some s.toList
  | value => some value.write

def alternativeText? (scope : Scope) (filters : FilterTable) (alternative : List Char) :
    Option (List Char) :=
  ((scope.alternative? filters alternative).bind render?).bind nonempty?

/-- The text of an expression, from its first alternative that has any. -/
def expression? (scope : Scope) (filters : FilterTable) (expression : List Char) :
    Option (List Char) :=
  (Expression.alternatives expression).findSome? (scope.alternativeText? filters)

/-- Stands for escaped opening braces while a text is rendered. -/
def openingGuard : List Char := ['\uE000', '\uE000']

/-- Stands for escaped closing braces while a text is rendered. -/
def closingGuard : List Char := ['\uE001', '\uE001']

/-- Take escaped braces out of the reach of the expression scanner. -/
def guardEscapes (s : List Char) : List Char :=
  Text.replace ('\\' :: Template.closing) closingGuard
    (Text.replace ('\\' :: Template.opening) openingGuard s)

/-- Put escaped braces back, without their backslash. -/
def releaseEscapes (s : List Char) : List Char :=
  Text.replace closingGuard Template.closing (Text.replace openingGuard Template.opening s)

def pieceText (scope : Scope) (filters : FilterTable) : Template.Piece → List Char
  | .plain s => s
  | .span body => (scope.expression? filters body).getD []

def interpolate (scope : Scope) (filters : FilterTable) (template : List Char) : List Char :=
  releaseEscapes ((Template.pieces (guardEscapes template)).flatMap (scope.pieceText filters))

end Scope

end UiMarkdown
