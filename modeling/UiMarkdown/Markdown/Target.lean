import UiMarkdown.Markdown.Entity
import UiMarkdown.Markdown.Tree
import UiMarkdown.Text.Case

/-!
# Destinations, titles and labels

A link says where it leads in place, or by a label that a definition elsewhere
gives a meaning.  The readers here take the text from some place on, and give
what they read with the text after it.
-/

namespace UiMarkdown

namespace Markdown

/-- The text inside angle brackets up to the closing one, which ends no text. -/
def angledUrl? : List Char → Option (List Char × List Char)
  | '\\' :: c :: rest => (angledUrl? rest).map fun (url, after) => ('\\' :: c :: url, after)
  | '>' :: rest => if rest.isEmpty then none else some ([], rest)
  | c :: rest =>
      if c == '\n' || c == '<' then none
      else (angledUrl? rest).map fun (url, after) => (c :: url, after)
  | [] => none

/--
The text up to the first space, control character or closing parenthesis that
is not matched inside it.  Parentheses nest at most thirty two deep, and the
end of the text ends no destination.
-/
def bareUrl? : (depth : Nat) → List Char → Option (List Char × List Char)
  | depth, '\\' :: c :: rest =>
      if Text.isAsciiMark c then
        (bareUrl? depth rest).map fun (url, after) => ('\\' :: c :: url, after)
      else (bareUrl? depth (c :: rest)).map fun (url, after) => ('\\' :: url, after)
  | depth, c :: rest =>
      if c == '(' then
        if depth < 32 then
          (bareUrl? (depth + 1) rest).map fun (url, after) => (c :: url, after)
        else none
      else if c == ')' then
        match depth with
        | 0 => some ([], c :: rest)
        | depth + 1 => (bareUrl? depth rest).map fun (url, after) => (c :: url, after)
      else if c.toNat ≤ 32 || c.toNat == 127 then
        if depth == 0 then some ([], c :: rest) else none
      else (bareUrl? depth rest).map fun (url, after) => (c :: url, after)
  | _, [] => none

def readUrl? : List Char → Option (List Char × List Char)
  | '<' :: rest => angledUrl? rest
  | c :: rest => if c.toNat ≤ 32 || c.toNat == 127 then none else bareUrl? 0 (c :: rest)
  | [] => none

/--
The text up to the end of a title.  A closing mark after a backslash ends the
title only if no later one does.  `opening` may not occur except after a
backslash.
-/
def titleEnd? (opening : Option Char) (closing : Char) :
    (escaped : Bool) → List Char → Option (List Char × List Char)
  | _, [] => none
  | escaped, c :: rest =>
      let longer :=
        (titleEnd? opening closing (c == '\\') rest).map fun (title, after) => (c :: title, after)
      if c == closing then
        if escaped then longer <|> some ([], rest) else some ([], rest)
      else if !escaped && opening == some c then none
      else longer

def readTitle? : List Char → Option (List Char × List Char)
  | '"' :: rest => titleEnd? none '"' false rest
  | '\'' :: rest => titleEnd? none '\'' false rest
  | '(' :: rest => titleEnd? (some '(') ')' false rest
  | _ => none

def Target.ofSource (url title : List Char) : Target where
  url := plain (Text.trimAscii url)
  title := plain title

/--
The text up to the bracket that closes a label, of which `used` bytes went
before.  A label has at most a thousand bytes and no bracket of its own.
-/
def labelEnd? : (used : Nat) → List Char → Option (List Char × List Char)
  | used, '\\' :: c :: rest =>
      if Text.isAsciiMark c then
        if used + 2 ≤ 1000 then
          (labelEnd? (used + 2) rest).map fun (label, after) => ('\\' :: c :: label, after)
        else none
      else if used + 1 ≤ 1000 then
        (labelEnd? (used + 1) (c :: rest)).map fun (label, after) => ('\\' :: label, after)
      else none
  | used, c :: rest =>
      if c == '[' then none
      else if c == ']' then some ([], rest)
      else if used + c.utf8Size ≤ 1000 then
        (labelEnd? (used + c.utf8Size) rest).map fun (label, after) => (c :: label, after)
      else none
  | _, [] => none

def readLabel? : List Char → Option (List Char × List Char)
  | '[' :: rest => (labelEnd? 0 rest).map fun (label, after) => (Text.trimAscii label, after)
  | _ => none

def collapseBlanks : (afterBlank : Bool) → List Char → List Char
  | _, [] => []
  | afterBlank, c :: rest =>
      if Text.isBlank c then
        if afterBlank then collapseBlanks true rest else ' ' :: collapseBlanks true rest
      else c :: collapseBlanks false rest

/-- Labels are compared without regard to case and to the amount of white space. -/
def normalLabel (label : List Char) : List Char :=
  collapseBlanks false (Text.foldCase (Text.trimAscii label))

/-- The definitions of a text: targets under their normal labels. -/
abbrev Definitions := List (List Char × Target)

/-- Add a definition; an earlier one of the same label stays. -/
def Definitions.add (definitions : Definitions) (label : List Char) (target : Target) :
    Definitions :=
  if label.isEmpty || (definitions.lookup label).isSome then definitions
  else definitions ++ [(label, target)]

def skipSpaces (s : List Char) : List Char :=
  s.dropWhile Text.isSpaceOrTab

/-- Drop spaces and tabs, and once a line end among them. -/
def skipSpacesAndLine (s : List Char) : List Char :=
  match skipSpaces s with
  | '\n' :: rest => skipSpaces rest
  | rest => rest

/-- What follows on the next line if nothing but spaces and tabs is left on this one. -/
def nextLine? (s : List Char) : Option (List Char) :=
  match skipSpaces s with
  | [] => some []
  | '\n' :: rest => some rest
  | _ => none

/--
The definition that starts a text, with its normal label.  A title that does
not end its line leaves the definition standing if the destination ends its
own line; the next line then is text.
-/
def readDefinition? (s : List Char) : Option ((List Char × Target) × List Char) := do
  let (label, afterLabel) ← readLabel? s
  if label.isEmpty then none
  match afterLabel with
  | ':' :: afterColon =>
      let (url, afterUrl) ← readUrl? (skipSpacesAndLine afterColon)
      let beforeTitle := skipSpacesAndLine afterUrl
      let title? := if beforeTitle.length < afterUrl.length then readTitle? beforeTitle else none
      match title? with
      | some (title, afterTitle) =>
          let rest ← nextLine? afterTitle <|> nextLine? afterUrl
          some ((normalLabel label, .ofSource url title), rest)
      | none =>
          let rest ← nextLine? afterUrl
          some ((normalLabel label, .ofSource url []), rest)
  | _ => none

/-- Take the definitions that start a text; what is left starts with none. -/
def takeDefinitions (definitions : Definitions) (s : List Char) : Definitions × List Char :=
  match readDefinition? s with
  | some ((label, target), rest) =>
      if rest.length < s.length then takeDefinitions (definitions.add label target) rest
      else (definitions, s)
  | none => (definitions, s)
termination_by s.length

end Markdown

end UiMarkdown
