import UiMarkdown.Markdown.Tree

/-!
# Emphasis

Runs of delimiters pair up into emphasis, from left to right: each run that
may close takes the nearest run before it that may open and fits.  What stands
between the two becomes the content, and delimiters left over are text.
-/

namespace UiMarkdown

namespace Markdown

/-- A run of equal delimiters, of which `left` are not used yet. -/
structure Delimiter where
  mark : Char
  length : Nat
  left : Nat
  opens : Bool
  closes : Bool
  place : Nat
  deriving Repr

/-- A part of a running text: finished, or a run of delimiters. -/
inductive Piece where
  | node (inline : Inline)
  | run (delimiter : Delimiter)
  deriving Repr

namespace Delimiter

def toInline (run : Delimiter) : Inline :=
  .text (List.replicate run.left run.mark)

/-- Whether a run may open what another one closes, were it not for their lengths. -/
def faces (opener closer : Delimiter) : Bool :=
  opener.opens && opener.mark == closer.mark

/--
Whether the lengths of two runs go together.  Where one of the runs could both
open and close, the lengths may not add up to a multiple of three, unless both
are multiples.
-/
def lengthsAgree (opener closer : Delimiter) : Bool :=
  !((closer.opens || opener.closes) && (opener.length + closer.length) % 3 == 0 &&
    !(opener.length % 3 == 0 && closer.length % 3 == 0))

def fits (opener closer : Delimiter) : Bool :=
  opener.faces closer && opener.lengthsAgree closer

/-- The runs that share the record of where no opener can be found. -/
def family (closer : Delimiter) : Char × Nat :=
  (closer.mark,
    if closer.mark == '*' then closer.length % 3 + (if closer.opens then 3 else 0) else 0)

def wrap (mark : Char) (count : Nat) (content : List Inline) : Inline :=
  if mark == '~' then .strike content
  else if count == 2 then .strong content
  else .emphasis content

end Delimiter

namespace Piece

def toInline : Piece → Inline
  | node inline => inline
  | run delimiter => delimiter.toInline

/-- A bound on the work that a part can still cause. -/
def weight : Piece → Nat
  | node _ => 1
  | run delimiter => delimiter.left + 1

/--
The nearest run that fits a closer, among the parts before the closer from the
nearest on and not before the place `bottom`.  It comes with the content
between the two, nearest first, and with the parts before it.
-/
def opener? (bottom : Nat) (closer : Delimiter) :
    List Piece → Option (List Inline × Delimiter × List Piece)
  | [] => none
  | node inline :: before =>
      (opener? bottom closer before).map fun (content, rest) => (inline :: content, rest)
  | run delimiter :: before =>
      if delimiter.place < bottom then none
      else if delimiter.fits closer then some ([], delimiter, before)
      else
        (opener? bottom closer before).map fun (content, rest) =>
          (delimiter.toInline :: content, rest)

/-- Whether a part not before `bottom` is a run that a closer faces. -/
def isFaced (bottom : Nat) (closer : Delimiter) : Piece → Bool
  | node _ => false
  | run delimiter => bottom ≤ delimiter.place && delimiter.faces closer

/--
Pair up delimiters.  `before` holds the parts passed over, nearest first, and
`bottoms` the place before which no opener for a family was found; a search
that failed at lengths alone is not recorded, for a closer of another length
may still succeed.  Strokes of unequal number stop all further pairing.
-/
def pairUp (bottoms : List ((Char × Nat) × Nat)) (before : List Piece) :
    (parts : List Piece) → List Inline
  | [] => before.reverse.map toInline
  | node inline :: after => pairUp bottoms (node inline :: before) after
  | run closer :: after =>
      if !closer.closes then pairUp bottoms (run closer :: before) after
      else
        let bottom := (bottoms.lookup closer.family).getD 0
        match opener? bottom closer before with
        | none =>
            let passed := if closer.opens then run closer else node closer.toInline
            let bottoms :=
              if before.any (isFaced bottom closer) then bottoms
              else (closer.family, closer.place) :: bottoms
            pairUp bottoms (passed :: before) after
        | some (content, opener, outside) =>
            let count := if 2 ≤ closer.left && 2 ≤ opener.left then 2 else 1
            if closer.mark == '~' && (opener.left != closer.left || opener.left != count) then
              (before.reverse ++ run closer :: after).map toInline
            else
              let wrapped := node (Delimiter.wrap closer.mark count content.reverse)
              let before :=
                if opener.left ≤ count then wrapped :: outside
                else wrapped :: run { opener with left := opener.left - count } :: outside
              if closer.left ≤ count then pairUp bottoms before after
              else
                pairUp bottoms before (run { closer with left := closer.left - count } :: after)
termination_by parts => parts.foldr (fun part n => part.weight + n) 0
decreasing_by
  all_goals simp only [List.foldr_cons, weight]
  all_goals try omega
  have : 1 ≤ count := by simp only [count]; split <;> omega
  omega

end Piece

def emphasise (parts : List Piece) : List Inline :=
  Piece.pairUp [] [] parts

end Markdown

end UiMarkdown
