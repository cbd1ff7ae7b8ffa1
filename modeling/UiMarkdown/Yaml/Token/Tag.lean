import UiMarkdown.Yaml.Token
import UiMarkdown.Yaml.Token.Scalar

/-!
# Tags, anchors and directives in Yaml text

A tag is a handle and a suffix; a handle is declared by a directive at the head
of a document.
-/

namespace UiMarkdown

namespace Yaml

namespace Cursor

/-- A handle at the start of a text: an exclamation mark, or two around a word. -/
def readHandle? (directive : Bool) (cursor : Cursor) : Option (List Char × Cursor) :=
  if !cursor.isAt '!' then none
  else
    let (word, cursor) := cursor.skip.takeWhile isWordChar
    if cursor.isAt '!' then some ('!' :: word ++ ['!'], cursor.skip)
    else if directive && !word.isEmpty then none
    else some ('!' :: word, cursor)

def isTagChar (verbatim : Bool) (c : Char) : Bool :=
  isWordChar c || ";/?:@&=+$.!~*'()".toList.contains c || (verbatim && ",[]".toList.contains c)

def readByte? (cursor : Cursor) : Option (Nat × Cursor) :=
  match cursor.rest with
  | '%' :: a :: b :: _ => (hexNumber? [a, b]).map fun n => (n, cursor.skip 3)
  | _ => none

def readContinuation? : (count : Nat) → (value : Nat) → Cursor → Option (Nat × Cursor)
  | 0, value, cursor => some (value, cursor)
  | count + 1, value, cursor =>
      match cursor.readByte? with
      | some (byte, cursor) =>
          if byte / 64 == 2 then readContinuation? count (value * 64 + byte % 64) cursor else none
      | none => none

def readBytes? (cursor : Cursor) : Option (Char × Cursor) := do
  let (byte, cursor) ← cursor.readByte?
  let (value, cursor) ←
    if byte < 128 then some (byte, cursor)
    else if byte / 32 == 6 then readContinuation? 1 (byte % 32) cursor
    else if byte / 16 == 14 then readContinuation? 2 (byte % 16) cursor
    else if byte / 8 == 30 then readContinuation? 3 (byte % 8) cursor
    else none
  if value.isValidChar then return (Char.ofNat value, cursor) else none

def readTagText? (verbatim : Bool) : (fuel : Nat) → (text : List Char) → Cursor →
    Option (List Char × Cursor)
  | 0, text, cursor => some (text, cursor)
  | fuel + 1, text, cursor =>
      if cursor.isAt '%' then
        match cursor.readBytes? with
        | some (c, cursor) => readTagText? verbatim fuel (c :: text) cursor
        | none => none
      else
        match cursor.rest with
        | c :: _ =>
            if isTagChar verbatim c then readTagText? verbatim fuel (c :: text) cursor.skip
            else some (text, cursor)
        | [] => some (text, cursor)

/-- The text of a tag after a head whose exclamation mark is left out; not both may be empty. -/
def readSuffix? (verbatim : Bool) (head : List Char) (cursor : Cursor) :
    Option (List Char × Cursor) :=
  match readTagText? verbatim (cursor.rest.length + 1) [] cursor with
  | some (text, cursor) =>
      if head.isEmpty && text.isEmpty then none else some (head.drop 1 ++ text.reverse, cursor)
  | none => none

def readTag? (flow : Bool) (cursor : Cursor) : Option (Token × Cursor) := do
  let (token, cursor) ←
    if cursor.peek? 1 == some '<' then do
      let (suffix, cursor) ← (cursor.skip 2).readSuffix? true []
      if cursor.isAt '>' then some (Token.tag [] suffix, cursor.skip) else none
    else do
      let (handle, next) ← cursor.readHandle? false
      if 1 < handle.length && handle.getLast? == some '!' then
        let (suffix, cursor) ← next.readSuffix? false []
        some (Token.tag handle suffix, cursor)
      else
        let (suffix, cursor) ← next.readSuffix? false handle
        some (if suffix.isEmpty then Token.tag [] ['!'] else Token.tag ['!'] suffix, cursor)
  if (flow && cursor.isAt ',') || cursor.isGap then return (token, cursor) else none

def readName? (cursor : Cursor) : Option (List Char × Cursor) :=
  let (name, cursor) := cursor.takeWhile isWordChar
  if !name.isEmpty && (cursor.isGap || cursor.holds fun c => "?:,]\x7d%@`".toList.contains c) then
    some (name, cursor)
  else none

def readVersionNumber? (cursor : Cursor) : Option (Nat × Cursor) :=
  let (digits, cursor) := cursor.takeWhile Char.isDigit
  if digits.isEmpty || 9 < digits.length then none
  else some (digits.foldl (fun n c => n * 10 + (c.toNat - 48)) 0, cursor)

def readVersion? (cursor : Cursor) : Option (Token × Cursor) := do
  let (major, cursor) ← (cursor.skipWhile Text.isSpaceOrTab).readVersionNumber?
  if cursor.isAt '.' then
    let (minor, cursor) ← cursor.skip.readVersionNumber?
    return (.version major minor, cursor)
  else none

def readTagHandle? (cursor : Cursor) : Option (Token × Cursor) := do
  let (handle, cursor) ← (cursor.skipWhile Text.isSpaceOrTab).readHandle? true
  if cursor.holds Text.isSpaceOrTab then
    let (expansion, cursor) ← (cursor.skipWhile Text.isSpaceOrTab).readSuffix? true []
    if cursor.isGap then return (.tagHandle handle expansion, cursor) else none
  else none

def readDirective? (cursor : Cursor) : Option (Token × Cursor) := do
  let (name, cursor) := cursor.skip.takeWhile isWordChar
  if !cursor.isGap then none
  else
    let (token, cursor) ←
      if name == "YAML".toList then cursor.readVersion?
      else if name == "TAG".toList then cursor.readTagHandle?
      else none
    let cursor := cursor.skipWhile Text.isSpaceOrTab
    let cursor := if cursor.isAt '#' then cursor.skipWhile (!isBreak ·) else cursor
    if cursor.isLineEnd then return (token, cursor.skipBreak) else none

end Cursor

end Yaml

end UiMarkdown
