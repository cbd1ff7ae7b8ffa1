import UiMarkdown.Template.Span
import UiMarkdown.Json.Basic
import UiMarkdown.Number.Literal

/-!
# Masking expressions

Markdown and Yaml know nothing of expressions and would take their characters
for markup.  So every span is replaced by a token of letters and digits before
a text is read or written, and put back afterwards.  The stem of the tokens is
chosen so that it occurs nowhere in the text; hence no token can be mistaken.
-/

namespace UiMarkdown

/-- The stem of the tokens, and the spans in the order of their tokens. -/
structure Mask where
  stem : List Char
  spans : List (List Char)
  deriving DecidableEq

namespace Mask

def baseStem : List Char := ['H', 'N', 'T', 'P', 'L']

def growth : Char := 'X'

def tokenEnd : Char := 'Q'

/-- Let a stem grow until it occurs in none of the texts, at most `fuel` times. -/
def growStem (texts : List (List Char)) : (fuel : Nat) → (stem : List Char) → List Char
  | 0, stem => stem
  | fuel + 1, stem =>
      if texts.any (Text.occurs stem) then growStem texts fuel (stem ++ [growth]) else stem

/-- The least stem that occurs in none of the texts. -/
def freshStem (texts : List (List Char)) : List Char :=
  growStem texts ((texts.map List.length).foldl max 0 + 1) baseStem

def token (stem : List Char) (n : Nat) : List Char :=
  stem ++ Nat.toDigits 10 n ++ [tokenEnd]

/-- Replace spans by tokens numbered from `n`; with the spans replaced. -/
def maskPieces (stem : List Char) : (n : Nat) → List Template.Piece →
    List Char × List (List Char)
  | _, [] => ([], [])
  | n, .plain s :: rest =>
      let (masked, spans) := maskPieces stem n rest
      (s ++ masked, spans)
  | n, .span body :: rest =>
      let (masked, spans) := maskPieces stem (n + 1) rest
      (token stem n ++ masked, (Template.Piece.span body).text :: spans)

def maskText (stem : List Char) (n : Nat) (s : List Char) : List Char × List (List Char) :=
  maskPieces stem n (Template.pieces s)

def ofText (s : List Char) : List Char × Mask :=
  let stem := freshStem [s]
  let (masked, spans) := maskText stem 0 s
  (masked, ⟨stem, spans⟩)

mutual

def textsOf : Json → List (List Char)
  | .str s => [s.toList]
  | .arr items => textsOfItems items
  | .obj members => textsOfMembers members
  | _ => []

def textsOfItems : List Json → List (List Char)
  | [] => []
  | item :: more => textsOf item ++ textsOfItems more

def textsOfMembers : List (String × Json) → List (List Char)
  | [] => []
  | (key, value) :: more => key.toList :: textsOf value ++ textsOfMembers more

end

mutual

/-- Replace the spans in the texts of a value, but not in its keys. -/
def maskJson (stem : List Char) (n : Nat) : Json → Json × List (List Char)
  | .str s =>
      let (masked, spans) := maskText stem n s.toList
      (.str (String.ofList masked), spans)
  | .arr items =>
      let (masked, spans) := maskItems stem n items
      (.arr masked, spans)
  | .obj members =>
      let (masked, spans) := maskMembers stem n members
      (.obj masked, spans)
  | value => (value, [])

def maskItems (stem : List Char) (n : Nat) : List Json → List Json × List (List Char)
  | [] => ([], [])
  | item :: more =>
      let (item, spans) := maskJson stem n item
      let (more, later) := maskItems stem (n + spans.length) more
      (item :: more, spans ++ later)

def maskMembers (stem : List Char) (n : Nat) :
    List (String × Json) → List (String × Json) × List (List Char)
  | [] => ([], [])
  | (key, value) :: more =>
      let (value, spans) := maskJson stem n value
      let (more, later) := maskMembers stem (n + spans.length) more
      ((key, value) :: more, spans ++ later)

end

def ofJson (value : Json) : Json × Mask :=
  let stem := freshStem (textsOf value)
  let (masked, spans) := maskJson stem 0 value
  (masked, ⟨stem, spans⟩)

/-- The digits of a token at the start of a text, and the text after the token. -/
def readToken? (stem s : List Char) : Option (List Char × List Char) :=
  match stem.isPrefixOf? s with
  | none => none
  | some rest =>
      let digits := rest.takeWhile Char.isDigit
      match rest.dropWhile Char.isDigit with
      | c :: after => if c == tokenEnd && !digits.isEmpty then some (digits, after) else none
      | [] => none

/-- A text that starts with a token is the token and what is left. -/
theorem eq_append_of_readToken? {stem s digits rest : List Char}
    (h : readToken? stem s = some (digits, rest)) :
    s = stem ++ digits ++ tokenEnd :: rest := by
  simp only [readToken?] at h
  split at h
  · simp at h
  · rename_i body starts
    split at h
    · rename_i c after left
      split at h
      · rename_i found
        simp only [Option.some.injEq, Prod.mk.injEq] at h
        simp only [Bool.and_eq_true, beq_iff_eq] at found
        rw [Text.eq_append_of_isPrefixOf? starts, ← h.1, ← h.2, ← found.1, ← left,
          List.append_assoc, List.takeWhile_append_dropWhile]
      · simp at h
    · simp at h

/-- What follows a token is shorter than the text. -/
theorem length_lt_of_readToken? {stem s digits rest : List Char}
    (h : readToken? stem s = some (digits, rest)) : rest.length < s.length := by
  rw [eq_append_of_readToken? h]
  simp
  omega

/-- The span of a token; a token without a span stays. -/
def spanOf (mask : Mask) (digits : List Char) : List Char :=
  match mask.spans[Literal.digitsValue digits]? with
  | some span => span
  | none => mask.stem ++ digits ++ [tokenEnd]

def restoreTokens (mask : Mask) (s : List Char) : List Char :=
  match _h : readToken? mask.stem s with
  | some (digits, rest) => mask.spanOf digits ++ restoreTokens mask rest
  | none =>
      match s with
      | [] => []
      | c :: rest => c :: restoreTokens mask rest
termination_by s.length
decreasing_by
  · exact length_lt_of_readToken? _h
  · simp

def restore (mask : Mask) (s : List Char) : List Char :=
  if mask.spans.isEmpty || !Text.occurs mask.stem s then s else mask.restoreTokens s

def restoreString (mask : Mask) (s : String) : String :=
  String.ofList (mask.restore s.toList)

mutual

def restoreJson (mask : Mask) : Json → Json
  | .str s => .str (mask.restoreString s)
  | .arr items => .arr (restoreItems mask items)
  | .obj members => .obj (Object.ofList (restoreMembers mask members))
  | value => value

def restoreItems (mask : Mask) : List Json → List Json
  | [] => []
  | item :: more => restoreJson mask item :: restoreItems mask more

def restoreMembers (mask : Mask) : List (String × Json) → List (String × Json)
  | [] => []
  | (key, value) :: more =>
      (mask.restoreString key, restoreJson mask value) :: restoreMembers mask more

end

/-- Put the spans in an object back; of keys that become equal the last one counts. -/
def restoreObject (mask : Mask) (object : Object) : Object :=
  Object.ofList (mask.restoreMembers object)

end Mask

end UiMarkdown
