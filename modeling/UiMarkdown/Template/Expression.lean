import UiMarkdown.Template.Span
import UiMarkdown.Template.Reference
import UiMarkdown.Json.Basic

/-!
# Expressions

An expression is a list of alternatives between `||`.  An alternative is a
head, a reference or a literal, followed by stages after `|`.  Separators
inside quotes do not count, and a backslash keeps the character after it from
separating alternatives or delimiting quotes.
-/

namespace UiMarkdown

namespace Expression

def isQuote (c : Char) : Bool :=
  c == '"' || c == '\''

def consFirst (c : Char) : List (List Char) → List (List Char)
  | [] => [[c]]
  | part :: parts => (c :: part) :: parts

/--
The parts of a text between the `||` that stand outside quotes, where `quote`
is the quote that is open.
-/
def splitAlternatives : (quote : Option Char) → List Char → List (List Char)
  | _, [] => [[]]
  | _, ['\\'] => [['\\']]
  | quote, '\\' :: c :: rest => consFirst '\\' (consFirst c (splitAlternatives quote rest))
  | none, '|' :: '|' :: rest => [] :: splitAlternatives none rest
  | none, c :: rest => consFirst c (splitAlternatives (if isQuote c then some c else none) rest)
  | some q, c :: rest => consFirst c (splitAlternatives (if c == q then none else some q) rest)

def alternatives (s : List Char) : List (List Char) :=
  (splitAlternatives none s).map Text.trim

/--
The parts of a text between the separators that stand outside quotes, where
`quote` is the quote that is open.
-/
def splitOutsideQuotes (separator : Char) : (quote : Option Char) → List Char → List (List Char)
  | _, [] => [[]]
  | some q, c :: rest =>
      consFirst c (splitOutsideQuotes separator (if c == q then none else some q) rest)
  | none, c :: rest =>
      if isQuote c then consFirst c (splitOutsideQuotes separator (some c) rest)
      else if c == separator then [] :: splitOutsideQuotes separator none rest
      else consFirst c (splitOutsideQuotes separator none rest)

def stages (alternative : List Char) : List (List Char) :=
  splitOutsideQuotes '|' none alternative

def head (alternative : List Char) : List Char :=
  Text.trim ((stages alternative).headD [])

/-- The text between two equal quotes that enclose a whole text. -/
def unquoted? (s : List Char) : Option (List Char) :=
  match s with
  | c :: d :: rest =>
      if isQuote c && (d :: rest).getLast? == some c then some (d :: rest).dropLast else none
  | _ => none

def stage (s : List Char) : List Char × Option (List Char) :=
  match Text.cutAt? (· == ':') s with
  | some (name, arg) =>
      let arg := Text.trim arg
      (Text.trim name, some ((unquoted? arg).getD arg))
  | none => (Text.trim s, none)

/-- The value of a literal: a quoted text, an integer or a finite number. -/
def literal? (s : List Char) : Option Json :=
  match unquoted? s with
  | some text => some (.str (String.ofList text))
  | none =>
      match Literal.int? s with
      | some i => some (.num (.int i))
      | none =>
          match Literal.float? s with
          | some (some x) => some (.num (.float x))
          | _ => none

def references (s : List Char) : List String :=
  (alternatives s).filterMap fun alternative =>
    let head := head alternative
    if head == ['t', 'r', 'u', 'e'] || head == ['f', 'a', 'l', 's', 'e'] then none
    else if (Reference.ofChars? head).isSome then some (String.ofList head)
    else none

end Expression

namespace Template

def references (s : List Char) : List String :=
  (expressions s).flatMap Expression.references

end Template

end UiMarkdown
