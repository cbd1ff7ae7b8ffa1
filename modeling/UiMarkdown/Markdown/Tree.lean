/-!
# The tree of a Markdown text

A Markdown text is a sequence of blocks, and a leaf block holds inlines.  Top
level blocks know the lines that they cover.

Extensions that no option turns on have kinds of their own, such as notes,
descriptions and frontmatter.  A tree may hold them, but no text is read as one.
-/

namespace UiMarkdown

namespace Markdown

/-- What a link or an image points at; an empty title stands for none. -/
structure Target where
  url : List Char
  title : List Char
  deriving DecidableEq, Repr

/-- A piece of running text; a group is one of a kind that only holds other pieces. -/
inductive Inline where
  | text (value : List Char)
  | softBreak
  | hardBreak
  | code (value : List Char)
  | html (source : List Char)
  | emphasis (children : List Inline)
  | strong (children : List Inline)
  | strike (children : List Inline)
  | link (target : Target) (children : List Inline)
  | image (target : Target) (children : List Inline)
  | group (children : List Inline)
  deriving Repr

/-- A block of a text; a group is one of a kind that only holds other blocks. -/
inductive Block where
  | paragraph (content : List Inline)
  | heading (level : Nat) (content : List Inline)
  | quote (children : List Block)
  | list (start : Option Nat) (tight : Bool) (items : List Block)
  | item (task : Option Bool) (children : List Block)
  | code (fenced : Bool) (info literal : List Char)
  | html (source : List Char)
  | rule
  | table (rows : List (List (List Inline)))
  | frontmatter (source : List Char)
  | group (children : List Block)
  deriving Repr

/-- A top level block with its first and its last line, counted from one. -/
structure Placed where
  block : Block
  first : Nat
  last : Nat
  deriving Repr

end Markdown

end UiMarkdown
