import UiMarkdown.Yaml.Token.Tag

/-!
# From Yaml text to tokens

Indentation and the colon are what make this more than cutting.  A mapping key
shows itself only at the colon after it; so wherever a key may start, the place
is remembered, and at the colon its token is put there.  A key must end on its
line and within 1024 characters.  A column beyond the current indentation opens
a block, and one before it closes all blocks that start further right.
-/

namespace UiMarkdown

namespace Yaml

/-- A place where a mapping key may have started. -/
structure PossibleKey where
  required : Bool
  position : Nat
  index : Nat
  line : Nat
  column : Nat

/--
The state of reading tokens: the columns of the open blocks, the possible key
of each open bracket, the innermost first, and the tokens read.
-/
structure Lexer where
  cursor : Cursor
  indent : Int := -1
  outer : List Int := []
  keyAllowed : Bool := true
  key : Option PossibleKey := none
  outerKeys : List (Option PossibleKey) := []
  tokens : Array Token := #[]

namespace Lexer

def inFlow (lexer : Lexer) : Bool :=
  !lexer.outerKeys.isEmpty

def push (lexer : Lexer) (token : Token) : Lexer :=
  { lexer with tokens := lexer.tokens.push token }

def moveTo (lexer : Lexer) (cursor : Cursor) : Lexer :=
  { lexer with cursor }

def allowKey (lexer : Lexer) (allowed : Bool) : Lexer :=
  { lexer with keyAllowed := allowed }

/-- Pass over blanks, comments and line breaks, at most `fuel` lines of them. -/
def skipToToken : (fuel : Nat) → Lexer → Lexer
  | 0, lexer => lexer
  | fuel + 1, lexer =>
      let cursor := lexer.cursor
      let cursor := if cursor.column == 0 && cursor.isAt '\uFEFF' then cursor.skip else cursor
      let tabs := lexer.inFlow || !lexer.keyAllowed
      let cursor := cursor.skipWhile fun c => c == ' ' || (tabs && c == '\t')
      let cursor := if cursor.isAt '#' then cursor.skipWhile (!isBreak ·) else cursor
      if cursor.holds isBreak then
        skipToToken fuel
          { lexer with cursor := cursor.skipBreak, keyAllowed := lexer.keyAllowed || !lexer.inFlow }
      else lexer.moveTo cursor

def isStale (cursor : Cursor) (key : PossibleKey) : Bool :=
  key.line < cursor.line || key.index + 1024 < cursor.index

/-- Drop a possible key that lies too far back; one that is required must not. -/
def dropStale? (cursor : Cursor) (key : Option PossibleKey) : Option (Option PossibleKey) :=
  match key with
  | some k => if isStale cursor k then if k.required then none else some none else some (some k)
  | none => some none

def dropStaleKeys? (lexer : Lexer) : Option Lexer := do
  let key ← dropStale? lexer.cursor lexer.key
  let outerKeys ← lexer.outerKeys.mapM (dropStale? lexer.cursor)
  return { lexer with key, outerKeys }

/-- Forget the possible key; one that is required must not be forgotten. -/
def forgetKey? (lexer : Lexer) : Option Lexer :=
  match lexer.key with
  | some key => if key.required then none else some { lexer with key := none }
  | none => some lexer

/-- Remember the current place as a possible key, if one may start there. -/
def rememberKey? (lexer : Lexer) : Option Lexer :=
  if lexer.keyAllowed then
    let cursor := lexer.cursor
    (forgetKey? lexer).map fun lexer =>
      { lexer with
        key := some {
          required := !lexer.inFlow && lexer.indent == cursor.column
          position := lexer.tokens.size
          index := cursor.index
          line := cursor.line
          column := cursor.column } }
  else some lexer

/-- Open a block at a column right of the current one; its token goes to a position. -/
def openBlock (lexer : Lexer) (column : Nat) (position : Nat) (token : Token) : Lexer :=
  if !lexer.inFlow && lexer.indent < column then
    { lexer with
      indent := column
      outer := lexer.indent :: lexer.outer
      tokens := lexer.tokens.insertIdxIfInBounds position token }
  else lexer

def closeBlocks (column : Int) (lexer : Lexer) : Lexer :=
  if lexer.inFlow then lexer
  else go lexer.outer lexer
where
  /-- Close blocks, the given ones being those around the current block. -/
  go : List Int → Lexer → Lexer
    | [], lexer => lexer
    | indent :: outer, lexer =>
        if column < lexer.indent then go outer (({ lexer with indent, outer }).push .blockEnd)
        else lexer

def punctuate (lexer : Lexer) (token : Token) (size : Nat := 1) : Lexer :=
  (lexer.push token).moveTo (lexer.cursor.skip size)

def documentMarker? (lexer : Lexer) (token : Token) : Option Lexer :=
  (forgetKey? (lexer.closeBlocks (-1))).map fun lexer =>
    (lexer.allowKey false).punctuate token 3

def directive? (lexer : Lexer) : Option Lexer := do
  let lexer ← forgetKey? (lexer.closeBlocks (-1))
  let (token, cursor) ← lexer.cursor.readDirective?
  return ((lexer.allowKey false).push token).moveTo cursor

def openFlow? (lexer : Lexer) (token : Token) : Option Lexer :=
  lexer.rememberKey?.map fun lexer =>
    ({ lexer with key := none, outerKeys := lexer.key :: lexer.outerKeys }.allowKey true).punctuate
      token

def closeFlow? (lexer : Lexer) (token : Token) : Option Lexer :=
  lexer.forgetKey?.map fun lexer =>
    let lexer := match lexer.outerKeys with
      | key :: outerKeys => { lexer with key, outerKeys }
      | [] => lexer
    (lexer.allowKey false).punctuate token

def flowEntry? (lexer : Lexer) : Option Lexer :=
  lexer.forgetKey?.map fun lexer => (lexer.allowKey true).punctuate .flowEntry

def blockEntry? (lexer : Lexer) : Option Lexer :=
  if !lexer.inFlow && !lexer.keyAllowed then none
  else
    (lexer.openBlock lexer.cursor.column lexer.tokens.size .blockSequence).forgetKey?.map
      fun lexer => (lexer.allowKey true).punctuate .blockEntry

def explicitKey? (lexer : Lexer) : Option Lexer :=
  if !lexer.inFlow && !lexer.keyAllowed then none
  else
    (lexer.openBlock lexer.cursor.column lexer.tokens.size .blockMapping).forgetKey?.map
      fun lexer => (lexer.allowKey (!lexer.inFlow)).punctuate .key

/-- A colon before a value.  The key before it gets its token now. -/
def value? (lexer : Lexer) : Option Lexer :=
  match lexer.key with
  | some key =>
      let lexer := { lexer with
        key := none
        keyAllowed := false
        tokens := lexer.tokens.insertIdxIfInBounds key.position .key }
      some ((lexer.openBlock key.column key.position .blockMapping).punctuate .value)
  | none =>
      if !lexer.inFlow && !lexer.keyAllowed then none
      else
        let lexer := lexer.openBlock lexer.cursor.column lexer.tokens.size .blockMapping
        some ((lexer.allowKey (!lexer.inFlow)).punctuate .value)

def name? (lexer : Lexer) (token : List Char → Token) : Option Lexer := do
  let lexer ← lexer.rememberKey?
  let (name, cursor) ← lexer.cursor.skip.readName?
  return ((lexer.allowKey false).push (token name)).moveTo cursor

def tag? (lexer : Lexer) : Option Lexer := do
  let lexer ← lexer.rememberKey?
  let (token, cursor) ← lexer.cursor.readTag? lexer.inFlow
  return ((lexer.allowKey false).push token).moveTo cursor

def block? (lexer : Lexer) (literal : Bool) : Option Lexer := do
  let lexer ← lexer.forgetKey?
  let (text, cursor) ← lexer.cursor.skip.block? literal lexer.indent
  return ((lexer.allowKey true).push (.scalar text false)).moveTo cursor

def quoted? (lexer : Lexer) (single : Bool) : Option Lexer := do
  let lexer ← lexer.rememberKey?
  let cursor := lexer.cursor.skip
  let (text, cursor) ← cursor.quoted? single (cursor.rest.length + 1) []
  return ((lexer.allowKey false).push (.scalar text false)).moveTo cursor

/-- A plain scalar; after line breaks behind it a key may start. -/
def plain? (lexer : Lexer) : Option Lexer := do
  let lexer ← lexer.rememberKey?
  let cursor := lexer.cursor
  let (text, broken, cursor) ←
    cursor.plain? lexer.inFlow (lexer.indent + 1).toNat (cursor.rest.length + 1) [] {}
  return ((lexer.allowKey broken).push (.scalar text true)).moveTo cursor

def startsPlain (lexer : Lexer) (c : Char) : Bool :=
  let cursor := lexer.cursor
  !(Text.isSpaceOrTab c || isBreak c || "-?:,[]\x7b\x7d#&*!|>'\"%@`".toList.contains c) ||
    (c == '-' && !cursor.holds Text.isSpaceOrTab 1) ||
    (!lexer.inFlow && (c == '?' || c == ':') && !cursor.isGap 1)

def token? (lexer : Lexer) (c : Char) : Option Lexer :=
  let cursor := lexer.cursor
  let flow := lexer.inFlow
  if cursor.column == 0 && c == '%' then lexer.directive?
  else if cursor.isMarker '-' then lexer.documentMarker? .documentStart
  else if cursor.isMarker '.' then lexer.documentMarker? .documentEnd
  else if c == '[' then lexer.openFlow? .flowSequence
  else if c == '\x7b' then lexer.openFlow? .flowMapping
  else if c == ']' then lexer.closeFlow? .flowSequenceEnd
  else if c == '\x7d' then lexer.closeFlow? .flowMappingEnd
  else if c == ',' then lexer.flowEntry?
  else if c == '-' && cursor.isGap 1 then lexer.blockEntry?
  else if c == '?' && (flow || cursor.isGap 1) then lexer.explicitKey?
  else if c == ':' && (flow || cursor.isGap 1) then lexer.value?
  else if c == '*' then lexer.name? .alias
  else if c == '&' then lexer.name? .anchor
  else if c == '!' then lexer.tag?
  else if c == '|' && !flow then lexer.block? true
  else if c == '>' && !flow then lexer.block? false
  else if c == '\'' then lexer.quoted? true
  else if c == '"' then lexer.quoted? false
  else if lexer.startsPlain c then lexer.plain?
  else none

def run? : (fuel : Nat) → Lexer → Option (List Token)
  | 0, _ => none
  | fuel + 1, lexer =>
      match (skipToToken (lexer.cursor.rest.length + 1) lexer).dropStaleKeys? with
      | none => none
      | some lexer =>
          let lexer := lexer.closeBlocks lexer.cursor.column
          match lexer.cursor.rest with
          | [] =>
              (lexer.closeBlocks (-1)).forgetKey?.map fun lexer =>
                (lexer.push .streamEnd).tokens.toList
          | c :: _ =>
              match lexer.token? c with
              | some lexer => run? fuel lexer
              | none => none

end Lexer

def Token.ofText? (s : List Char) : Option (List Token) :=
  if s.all isAllowed then Lexer.run? (s.length + 1) { cursor := { rest := s } } else none

end Yaml

end UiMarkdown
