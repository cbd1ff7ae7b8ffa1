import UiMarkdown.Template.Mask

/-!
# Markdown fragments

A fragment is a run of Markdown as a tree: blocks, which hold blocks or
inlines, and inlines.  Its plain text is what remains when all markup is taken
away.
-/

namespace UiMarkdown

inductive Fragment where
  | paragraph (children : List Fragment)
  | heading (depth : Nat) (children : List Fragment)
  | blockquote (children : List Fragment)
  | list (ordered : Bool) (start : Option Nat) (spread : Bool) (children : List Fragment)
  | listItem (checked : Option Bool) (children : List Fragment)
  | code (lang : Option String) (value : String)
  | thematicBreak
  | table (children : List Fragment)
  | tableRow (children : List Fragment)
  | tableCell (children : List Fragment)
  | text (value : String)
  | emphasis (children : List Fragment)
  | strong (children : List Fragment)
  | delete (children : List Fragment)
  | inlineCode (value : String)
  | lineBreak
  | link (url : String) (title : Option String) (children : List Fragment)
  | image (url : String) (title : Option String) (alt : String)
  deriving Repr, Inhabited

namespace Fragment

def children : Fragment → List Fragment
  | .paragraph cs | .heading _ cs | .blockquote cs | .list _ _ _ cs | .listItem _ cs
  | .table cs | .tableRow cs | .tableCell cs | .emphasis cs | .strong cs | .delete cs
  | .link _ _ cs => cs
  | .code _ _ | .thematicBreak | .text _ | .inlineCode _ | .lineBreak | .image _ _ _ => []

def isBlock : Fragment → Bool
  | .paragraph _ | .heading _ _ | .blockquote _ | .list _ _ _ _ | .listItem _ _ | .code _ _
  | .thematicBreak | .table _ | .tableRow _ | .tableCell _ => true
  | _ => false

/--
Join the plain texts of nodes: blocks by blank lines, leaving out those that
are empty without their last line ends; inlines without anything between.
-/
def joinTexts (blocks : Bool) (texts : List (List Char)) : List Char :=
  if blocks then
    ['\n', '\n'].intercalate
      ((texts.map (Text.dropEnd (· == '\n'))).filter fun text => !text.isEmpty)
  else texts.flatten

mutual

def plainText : Fragment → List Char
  | .text value | .inlineCode value | .code _ value => value.toList
  | .image _ _ alt => alt.toList
  | .lineBreak => ['\n']
  | .thematicBreak => []
  | .tableRow cs => [' ', '|', ' '].intercalate (plainTexts cs)
  | .paragraph cs | .heading _ cs | .blockquote cs | .list _ _ _ cs | .listItem _ cs
  | .table cs | .tableCell cs | .emphasis cs | .strong cs | .delete cs | .link _ _ cs =>
      joinTexts (cs.any isBlock) (plainTexts cs)

def plainTexts : List Fragment → List (List Char)
  | [] => []
  | node :: more => plainText node :: plainTexts more

end

def flatten (nodes : List Fragment) : List Char :=
  joinTexts (nodes.any isBlock) (plainTexts nodes)

mutual

def restore (mask : Mask) : Fragment → Fragment
  | .text value => .text (mask.restoreString value)
  | .inlineCode value => .inlineCode (mask.restoreString value)
  | .code lang value => .code (lang.map mask.restoreString) (mask.restoreString value)
  | .image url title alt =>
      .image (mask.restoreString url) (title.map mask.restoreString) (mask.restoreString alt)
  | .link url title cs =>
      .link (mask.restoreString url) (title.map mask.restoreString) (restoreAll mask cs)
  | .paragraph cs => .paragraph (restoreAll mask cs)
  | .heading depth cs => .heading depth (restoreAll mask cs)
  | .blockquote cs => .blockquote (restoreAll mask cs)
  | .list ordered start spread cs => .list ordered start spread (restoreAll mask cs)
  | .listItem checked cs => .listItem checked (restoreAll mask cs)
  | .table cs => .table (restoreAll mask cs)
  | .tableRow cs => .tableRow (restoreAll mask cs)
  | .tableCell cs => .tableCell (restoreAll mask cs)
  | .emphasis cs => .emphasis (restoreAll mask cs)
  | .strong cs => .strong (restoreAll mask cs)
  | .delete cs => .delete (restoreAll mask cs)
  | .thematicBreak => .thematicBreak
  | .lineBreak => .lineBreak

def restoreAll (mask : Mask) : List Fragment → List Fragment
  | [] => []
  | node :: more => restore mask node :: restoreAll mask more

end

/-- Put one text node in front of nodes; an empty one vanishes, adjacent ones merge. -/
def consText (value : String) : List Fragment → List Fragment
  | .text more :: rest => .text (value ++ more) :: rest
  | rest => if value.isEmpty then rest else .text value :: rest

/-- Merge adjacent text nodes and drop empty ones. -/
def mergeText : List Fragment → List Fragment
  | [] => []
  | .text value :: rest => consText value (mergeText rest)
  | node :: rest => node :: mergeText rest

mutual

def same : Fragment → Fragment → Bool
  | .paragraph a, .paragraph b => sameAll a b
  | .heading d a, .heading e b => d == e && sameAll a b
  | .blockquote a, .blockquote b => sameAll a b
  | .list o s p a, .list o' s' p' b => o == o' && s == s' && p == p' && sameAll a b
  | .listItem c a, .listItem d b => c == d && sameAll a b
  | .code l v, .code m w => l == m && v == w
  | .thematicBreak, .thematicBreak => true
  | .table a, .table b => sameAll a b
  | .tableRow a, .tableRow b => sameAll a b
  | .tableCell a, .tableCell b => sameAll a b
  | .text v, .text w => v == w
  | .emphasis a, .emphasis b => sameAll a b
  | .strong a, .strong b => sameAll a b
  | .delete a, .delete b => sameAll a b
  | .inlineCode v, .inlineCode w => v == w
  | .lineBreak, .lineBreak => true
  | .link u t a, .link v s b => u == v && t == s && sameAll a b
  | .image u t a, .image v s b => u == v && t == s && a == b
  | _, _ => false

def sameAll : List Fragment → List Fragment → Bool
  | [], [] => true
  | a :: as, b :: bs => same a b && sameAll as bs
  | _, _ => false

end

mutual

theorem same_self : (node : Fragment) → same node node = true
  | .paragraph cs | .blockquote cs | .table cs | .tableRow cs | .tableCell cs | .emphasis cs
  | .strong cs | .delete cs => by simpa [same] using sameAll_self cs
  | .heading _ cs | .listItem _ cs => by simpa [same] using sameAll_self cs
  | .list _ _ _ cs => by simpa [same] using sameAll_self cs
  | .link _ _ cs => by simpa [same] using sameAll_self cs
  | .code _ _ | .thematicBreak | .text _ | .inlineCode _ | .lineBreak | .image _ _ _ => by
      simp [same]

theorem sameAll_self : (nodes : List Fragment) → sameAll nodes nodes = true
  | [] => rfl
  | node :: more => by simp [sameAll, same_self node, sameAll_self more]

end

mutual

theorem eq_of_same : (a b : Fragment) → same a b = true → a = b
  | .paragraph as, b, h => by
      cases b <;> simp only [same, Bool.false_eq_true] at h
      rw [eq_of_sameAll as _ h]
  | .heading _ as, b, h => by
      cases b <;> simp only [same, Bool.false_eq_true, Bool.and_eq_true, beq_iff_eq] at h
      rw [h.1, eq_of_sameAll as _ h.2]
  | .blockquote as, b, h => by
      cases b <;> simp only [same, Bool.false_eq_true] at h
      rw [eq_of_sameAll as _ h]
  | .list _ _ _ as, b, h => by
      cases b <;> simp only [same, Bool.false_eq_true, Bool.and_eq_true, beq_iff_eq] at h
      rw [h.1.1.1, h.1.1.2, h.1.2, eq_of_sameAll as _ h.2]
  | .listItem _ as, b, h => by
      cases b <;> simp only [same, Bool.false_eq_true, Bool.and_eq_true, beq_iff_eq] at h
      rw [h.1, eq_of_sameAll as _ h.2]
  | .code _ _, b, h => by cases b <;> simp_all [same]
  | .thematicBreak, b, h => by cases b <;> simp_all [same]
  | .table as, b, h => by
      cases b <;> simp only [same, Bool.false_eq_true] at h
      rw [eq_of_sameAll as _ h]
  | .tableRow as, b, h => by
      cases b <;> simp only [same, Bool.false_eq_true] at h
      rw [eq_of_sameAll as _ h]
  | .tableCell as, b, h => by
      cases b <;> simp only [same, Bool.false_eq_true] at h
      rw [eq_of_sameAll as _ h]
  | .text _, b, h => by cases b <;> simp_all [same]
  | .emphasis as, b, h => by
      cases b <;> simp only [same, Bool.false_eq_true] at h
      rw [eq_of_sameAll as _ h]
  | .strong as, b, h => by
      cases b <;> simp only [same, Bool.false_eq_true] at h
      rw [eq_of_sameAll as _ h]
  | .delete as, b, h => by
      cases b <;> simp only [same, Bool.false_eq_true] at h
      rw [eq_of_sameAll as _ h]
  | .inlineCode _, b, h => by cases b <;> simp_all [same]
  | .lineBreak, b, h => by cases b <;> simp_all [same]
  | .link _ _ as, b, h => by
      cases b <;> simp only [same, Bool.false_eq_true, Bool.and_eq_true, beq_iff_eq] at h
      rw [h.1.1, h.1.2, eq_of_sameAll as _ h.2]
  | .image _ _ _, b, h => by cases b <;> simp_all [same]

theorem eq_of_sameAll : (as bs : List Fragment) → sameAll as bs = true → as = bs
  | [], bs, h => by cases bs <;> simp_all [sameAll]
  | a :: as, bs, h => by
      cases bs with
      | nil => simp [sameAll] at h
      | cons b bs =>
          simp only [sameAll, Bool.and_eq_true] at h
          rw [eq_of_same a b h.1, eq_of_sameAll as bs h.2]

end

instance : DecidableEq Fragment := fun a b =>
  decidable_of_iff (same a b = true) ⟨eq_of_same a b, fun h => h ▸ same_self a⟩

end Fragment

end UiMarkdown
