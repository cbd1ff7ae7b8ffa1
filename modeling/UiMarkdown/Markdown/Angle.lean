import UiMarkdown.Text.Chars

/-!
# Angle brackets

After an opening angle bracket may stand an address, which is a link, or a
piece of Html: a tag, a comment, an instruction, a declaration or a section of
character data.  The readers take the text after the opening bracket, and give
the text after what they recognise.
-/

namespace UiMarkdown

namespace Markdown

/-- What follows a fixed text; letters are compared without regard to case. -/
def afterWord? (word : String) (s : List Char) : Option (List Char) :=
  let length := word.length
  if (s.take length).map Char.toLower == word.toList then some (s.drop length) else none

def afterRun? (p : Char → Bool) (s : List Char) : Option (List Char) :=
  if (s.head?).any p then some (s.dropWhile p) else none

def afterChar? (c : Char) (s : List Char) : Option (List Char) :=
  if s.head? == some c then some s.tail else none

def afterUri? (s : List Char) : Option (List Char) :=
  let scheme := s.takeWhile fun c => c.isAlphanum || c == '+' || c == '.' || c == '-'
  if (s.head?).any Char.isAlpha && 2 ≤ scheme.length && scheme.length ≤ 32 then do
    let rest ← afterChar? ':' (s.drop scheme.length)
    afterChar? '>' (rest.dropWhile fun c => 32 < c.toNat && c != '<' && c != '>')
  else none

def isDomainLabel (s : List Char) : Bool :=
  s.length ≤ 63 && (s.head?).any Char.isAlphanum && (s.getLast?).any Char.isAlphanum

def afterMail? (s : List Char) : Option (List Char) := do
  let afterName ← afterRun?
    (fun c => c.isAlphanum || ".!#$%&'*+/=?^_\x60\x7b|\x7d~-".toList.contains c) s
  let afterSign ← afterChar? '@' afterName
  let domain := afterSign.takeWhile fun c => c.isAlphanum || c == '-' || c == '.'
  if (domain.splitOn '.').all isDomainLabel then
    afterChar? '>' (afterSign.drop domain.length)
  else none

def afterValue? (s : List Char) : Option (List Char) :=
  match s with
  | '"' :: rest => afterChar? '"' (rest.dropWhile (· != '"'))
  | '\'' :: rest => afterChar? '\'' (rest.dropWhile (· != '\''))
  | _ => afterRun? (fun c => !Text.isAsciiBlank c && !"\"'=<>\x60".toList.contains c) s

def isAttributeChar (c : Char) : Bool :=
  c.isAlphanum || c == '_' || c == ':' || c == '.' || c == '-'

def afterAttributes? (s : List Char) : Option (List Char) :=
  let rest := s.dropWhile Text.isAsciiBlank
  match rest with
  | '>' :: after => some after
  | '/' :: '>' :: after => some after
  | c :: named =>
      if rest.length < s.length && (c.isAlpha || c == '_' || c == ':') then
        let afterName := named.dropWhile isAttributeChar
        match afterName.dropWhile Text.isAsciiBlank with
        | '=' :: value =>
            match afterValue? (value.dropWhile Text.isAsciiBlank) with
            | some after => if after.length < s.length then afterAttributes? after else none
            | none => none
        | _ => if afterName.length < s.length then afterAttributes? afterName else none
      else none
  | [] => none
termination_by s.length

def afterTagName? (s : List Char) : Option (List Char) :=
  if (s.head?).any Char.isAlpha then
    some (s.dropWhile fun c => c.isAlphanum || c == '-')
  else none

def afterTag? : List Char → Option (List Char)
  | '/' :: rest => do
      let afterName ← afterTagName? rest
      afterChar? '>' (afterName.dropWhile Text.isAsciiBlank)
  | s => (afterTagName? s).bind afterAttributes?

/--
What follows a comment after its first two hyphens.  Two hyphens inside it
take the character after them along, unless that closes the comment.
-/
def afterComment? : List Char → Option (List Char)
  | '-' :: '-' :: '>' :: rest => some rest
  | '-' :: '-' :: _ :: rest => afterComment? rest
  | '-' :: c :: rest => if c == '-' then none else afterComment? rest
  | c :: rest => if c == '-' then none else afterComment? rest
  | [] => none

/-- What follows a comment, of which two hyphens went before. -/
def afterHyphens? : List Char → Option (List Char)
  | '>' :: rest => some rest
  | '-' :: '>' :: rest => some rest
  | s => afterComment? s

/-- What follows an instruction, of which a question mark went before. -/
def afterInstruction? : List Char → Option (List Char)
  | '?' :: '>' :: rest => some rest
  | '?' :: _ :: rest => afterInstruction? rest
  | _ :: rest => afterInstruction? rest
  | [] => none

def afterData? : List Char → Option (List Char)
  | ']' :: ']' :: '>' :: rest => some rest
  | ']' :: ']' :: _ :: rest => afterData? rest
  | ']' :: c :: rest => if c == ']' then none else afterData? rest
  | c :: rest => if c == ']' then none else afterData? rest
  | [] => none

def afterDeclaration? (s : List Char) : Option (List Char) := do
  let afterName ← afterRun? Char.isAlpha s
  let afterGap ← afterRun? Text.isAsciiBlank afterName
  afterChar? '>' (afterGap.dropWhile (· != '>'))

/-- The forms of Html that a block can have, by how it starts and ends. -/
inductive HtmlKind where
  | verbatim
  | comment
  | instruction
  | declaration
  | data
  | blockTag
  | loneTag
  deriving DecidableEq, Repr

namespace HtmlKind

def verbatimNames : List String := ["script", "pre", "textarea", "style"]

def blockNames : List String := [
  "address", "article", "aside", "base", "basefont", "blockquote", "body", "caption", "center",
  "col", "colgroup", "dd", "details", "dialog", "dir", "div", "dl", "dt", "fieldset",
  "figcaption", "figure", "footer", "form", "frame", "frameset", "h1", "h2", "h3", "h4", "h5",
  "h6", "head", "header", "hr", "html", "iframe", "legend", "li", "link", "main", "menu",
  "menuitem", "nav", "noframes", "ol", "optgroup", "option", "p", "param", "search", "section",
  "summary", "table", "tbody", "td", "tfoot", "th", "thead", "title", "tr", "track", "ul"]

/-- Whether a text starts with a tag name and a character that ends it. -/
def startsTag (closing : Bool) (names : List String) (s : List Char) : Bool :=
  names.any fun name =>
    match afterWord? name s with
    | some [] => true
    | some ('/' :: '>' :: _) => closing
    | some (c :: _) => c == '>' || Text.isAsciiBlank c
    | none => false

def isTrailing (c : Char) : Bool :=
  c == ' ' || c == '\t' || c == '\x0c'

/-- The form of the block that starts a line; the last form interrupts no paragraph. -/
def ofLine? (inParagraph : Bool) : List Char → Option HtmlKind
  | '<' :: s =>
      if startsTag false verbatimNames s then some verbatim
      else if (afterWord? "!--" s).isSome then some comment
      else if (afterWord? "?" s).isSome then some instruction
      else if ((afterWord? "!" s).bind List.head?).any Char.isAlpha then some declaration
      else if (afterWord? "![cdata[" s).isSome then some data
      else if startsTag true blockNames ((afterChar? '/' s).getD s) then some blockTag
      else if !inParagraph && (afterTag? s).any (·.all isTrailing) then some loneTag
      else none
  | _ => none

def endsAt (kind : HtmlKind) (line : List Char) : Bool :=
  match kind with
  | verbatim =>
      verbatimNames.any fun name => Text.occurs (("</" ++ name ++ ">").toList)
        (line.map Char.toLower)
  | comment => Text.occurs "-->".toList line
  | instruction => Text.occurs "?>".toList line
  | declaration => line.contains '>'
  | data => Text.occurs "]]>".toList line
  | blockTag | loneTag => false

def endsAtBlank (kind : HtmlKind) : Bool :=
  kind = blockTag || kind = loneTag

end HtmlKind

end Markdown

end UiMarkdown
