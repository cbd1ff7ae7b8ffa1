import UiMarkdown.Text.Quoted
import UiMarkdown.Text.Chars
import UiMarkdown.Number.Literal

/-!
# References

A reference names a value by a root and a path of steps:

    reference  := identifier step*
    step       := '.' identifier | '.' integer | '[' index ']'
    identifier := [A-Za-z_][A-Za-z0-9_-]*
    index      := integer | "text" | 'text' | [A-Za-z0-9_-]+

An integer is an index, everything else a key.  Text that does not follow the
grammar is no reference; that is no error.
-/

namespace UiMarkdown

inductive Segment where
  | index (position : Nat)
  | key (name : String)
  deriving DecidableEq, Repr

/-- A root and the steps that lead from it to a value. -/
structure Reference where
  root : String
  segments : List Segment
  deriving DecidableEq, Repr

namespace Reference

def isIdentifierStart (c : Char) : Bool :=
  c.isAlpha || c == '_'

def isIdentifierChar (c : Char) : Bool :=
  c.isAlphanum || c == '_' || c == '-'

def isIdentifier : List Char → Bool
  | [] => false
  | c :: rest => isIdentifierStart c && rest.all isIdentifierChar

def takeRun (p : Char → Bool) (s : List Char) : List Char × List Char :=
  (s.takeWhile p, s.dropWhile p)

def readIdentifier? (s : List Char) : Option (String × List Char) :=
  match s with
  | [] => none
  | c :: _ =>
      if isIdentifierStart c then
        let (name, rest) := takeRun isIdentifierChar s
        some (String.ofList name, rest)
      else none

/-- An index of 64 bits at the start of a text. -/
def readIndex? (s : List Char) : Option (Nat × List Char) :=
  let (digits, rest) := takeRun Char.isDigit s
  (Literal.nat? digits).map fun n => (n, rest)

def readBracket? (s : List Char) : Option (Segment × List Char) :=
  match s with
  | [] => none
  | c :: rest =>
      if c == '"' || c == '\'' then
        match takeRun (· != c) rest with
        | (name, _ :: rest) => some (.key (String.ofList name), rest)
        | (_, []) => none
      else if c.isDigit then (readIndex? s).map fun (n, rest) => (.index n, rest)
      else
        match takeRun isIdentifierChar s with
        | ([], _) => none
        | (name, rest) => some (.key (String.ofList name), rest)

def readSegment? (s : List Char) : Option (Segment × List Char) :=
  match s with
  | '.' :: rest =>
      match rest with
      | [] => none
      | c :: _ =>
          if c.isDigit then (readIndex? rest).map fun (n, rest) => (.index n, rest)
          else (readIdentifier? rest).map fun (name, rest) => (.key name, rest)
  | '[' :: rest =>
      match readBracket? rest with
      | some (segment, ']' :: rest) => some (segment, rest)
      | _ => none
  | _ => none

/-- The steps that make up a whole text, reading at most as many as it has characters. -/
def readSegments? : (fuel : Nat) → List Char → Option (List Segment)
  | _, [] => some []
  | 0, _ :: _ => none
  | fuel + 1, s =>
      match readSegment? s with
      | some (segment, rest) => (readSegments? fuel rest).map (segment :: ·)
      | none => none

def ofChars? (s : List Char) : Option Reference :=
  match readIdentifier? s with
  | some (root, rest) => (readSegments? rest.length rest).map fun segments => ⟨root, segments⟩
  | none => none

/-- The reference that a text writes, white space around it apart. -/
def ofText? (text : String) : Option Reference :=
  ofChars? (Text.trim text.toList)

/-- The query that a reference reads: the first key below the root of all queries. -/
def queryId? (reference : Reference) : Option String :=
  if reference.root == "queries" then
    match reference.segments with
    | .key name :: _ => some name
    | _ => none
  else none

def segmentText : Segment → List Char
  | .index n => '[' :: Nat.toDigits 10 n ++ [']']
  | .key name =>
      if isIdentifier name.toList then '.' :: name.toList
      else '[' :: Text.quoted name.toList ++ [']']

def text (reference : Reference) : String :=
  String.ofList (reference.root.toList ++ reference.segments.flatMap segmentText)

end Reference

end UiMarkdown
