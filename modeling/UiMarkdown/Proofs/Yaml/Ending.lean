import UiMarkdown.Proofs.Text.Line
import UiMarkdown.Proofs.Yaml.Writer
import UiMarkdown.Template.Mask

/-!
# The end of written Yaml

Written Yaml ends in a line feed, except that a literal block keeps the line
break that its text ends in, whichever it is, and then no line feed is added.
-/

namespace UiMarkdown

namespace Yaml

/-- A text ends in no line break but a line feed. -/
def FeedsLast (s : List Char) : Prop :=
  ∀ last ∈ s.getLast?, isBreak last = true → last = '\n'

namespace FeedsLast

theorem concat {c : Char} (s : List Char) (unbroken : isBreak c = false) :
    FeedsLast (s ++ [c]) := by
  intro last isLast breaks
  rw [List.getLast?_concat, Option.mem_some_iff] at isLast
  rw [← isLast, unbroken] at breaks
  cases breaks

theorem append {s : List Char} (feeds : FeedsLast s) (nonempty : s ≠ []) (before : List Char) :
    FeedsLast (before ++ s) := by
  intro last isLast
  rw [List.getLast?_append_of_ne_nil before nonempty] at isLast
  exact feeds last isLast

theorem cons {c : Char} {s : List Char} (feeds : FeedsLast s) (unbroken : isBreak c = false) :
    FeedsLast (c :: s) := by
  cases s with
  | nil => exact concat [] unbroken
  | cons d s => exact feeds.append (List.cons_ne_nil d s) [c]

theorem of_unbroken {s : List Char} (unbroken : ∀ c ∈ s, isBreak c = false) : FeedsLast s := by
  intro last isLast breaks
  rw [unbroken last (List.mem_of_mem_getLast? isLast)] at breaks
  cases breaks

theorem of_forall {s : List Char} (unbroken : s.Forall (isBreak · = false)) : FeedsLast s :=
  of_unbroken (List.forall_iff_forall_mem.1 unbroken)

theorem endsLine {s : List Char} (feeds : FeedsLast s) : Text.EndsLine (endLine s) := by
  rw [endLine]
  split
  · rename_i breaks
    intro last isLast
    rw [Option.mem_def.1 isLast] at breaks
    exact feeds last isLast breaks
  · exact Text.endsLine_append_feed s

end FeedsLast

theorem isBreak_of_isNumeral {c : Char} (numeral : FloatLayout.isNumeral c = true) : isBreak c = false := by
  cases breaks : isBreak c with
  | false => rfl
  | true =>
      simp only [isBreak, Bool.or_eq_true, beq_iff_eq] at breaks
      rcases breaks with ((((rfl | rfl) | rfl) | rfl) | rfl) <;> revert numeral <;> decide

/-- Indentation stands before the lines of a text, and adds nothing behind them. -/
theorem getLast?_indentLines (indent : Nat) (lineStart : Bool) (s : List Char) :
    (indentLines indent lineStart s).getLast? = s.getLast? := by
  induction s generalizing lineStart with
  | nil => rfl
  | cons c s ih =>
      have here (next : Bool) : (c :: indentLines indent next s).getLast? = (c :: s).getLast? := by
        rw [List.getLast?_cons, List.getLast?_cons, ih]
      rw [indentLines]
      split
      · exact here true
      · split
        · rw [List.getLast?_append_of_ne_nil _ (List.cons_ne_nil _ _)]
          exact here false
        · exact here false

theorem feedsLast_writeText (indent : Nat) {s : List Char} (feeds : FeedsLast s) :
    FeedsLast (writeText indent s) := by
  rw [writeText]
  cases style : Style.ofText s with
  | plain => exact feeds
  | single => exact .concat _ (by decide)
  | double => exact .concat _ (by decide)
  | literal =>
      have feed : '\n' ∈ s := by
        rw [feed_mem_of_style (by rw [style]; exact fun same => by cases same)]
        exact style
      have lines := getLast?_indentLines indent true s
      have nonempty : indentLines indent true s ≠ [] := by
        intro none
        rw [none, List.getLast?_nil, eq_comm, List.getLast?_eq_none_iff] at lines
        exact List.not_mem_nil (lines ▸ feed)
      have last : FeedsLast (indentLines indent true s) := by
        rw [FeedsLast, lines]
        exact feeds
      have whole : '|' :: literalSigns s ++ '\n' :: indentLines indent true s =
          ('|' :: literalSigns s ++ ['\n']) ++ indentLines indent true s := by simp
      dsimp only
      rw [whole]
      exact last.append nonempty _

theorem writeValue_ne_nil (indent : Nat) (afterKey : Bool) (value : Json) :
    writeValue indent afterKey value ≠ [] := by
  cases afterKey with
  | false =>
      obtain ⟨rest, starts⟩ := exists_writeValue_eq indent value
      rw [starts]
      exact List.cons_ne_nil _ _
  | true =>
      rcases value with _ | b | n | s | items | members
      · exact List.cons_ne_nil _ _
      · cases b <;> exact List.cons_ne_nil _ _
      · exact List.cons_ne_nil _ _
      · exact List.cons_ne_nil _ _
      · cases items <;> exact List.cons_ne_nil _ _
      · cases members <;> exact List.cons_ne_nil _ _

theorem writeItems_ne_nil (indent : Nat) (item : Json) (more : List Json) :
    writeItems indent (item :: more) ≠ [] := by
  cases more with
  | nil => exact List.cons_ne_nil _ _
  | cons next more =>
      obtain ⟨ending, line⟩ := exists_endLine_eq ('-' :: writeValue indent false item)
      rw [writeItems_cons_cons, line]
      exact List.cons_ne_nil _ _

mutual

/-- What a value ends in is what its last text ends in, or no line break. -/
theorem feedsLast_writeValue (indent : Nat) (afterKey : Bool) (value : Json)
    (feeds : ∀ text ∈ Mask.textsOf value, FeedsLast text) :
    FeedsLast (writeValue indent afterKey value) := by
  match value with
  | .null => exact .of_forall (s := " null".toList) (by decide)
  | .bool true => exact .of_forall (s := " true".toList) (by decide)
  | .bool false => exact .of_forall (s := " false".toList) (by decide)
  | .num n =>
      refine .of_unbroken (s := ' ' :: writeNumber n) (List.forall_mem_cons.2 ⟨by decide, ?_⟩)
      exact fun c mem => isBreak_of_isNumeral (isNumeral_of_mem_writeNumber n c mem)
  | .str s =>
      rw [Mask.textsOf, List.forall_mem_singleton] at feeds
      exact (feedsLast_writeText _ feeds).cons (by decide)
  | .arr [] => exact .of_forall (s := " []".toList) (by decide)
  | .arr (item :: more) =>
      rw [Mask.textsOf] at feeds
      cases afterKey with
      | true =>
          exact (feedsLast_writeItems indent (item :: more) feeds).append
            (writeItems_ne_nil _ _ _) ('\n' :: spaces indent)
      | false =>
          exact (feedsLast_writeItems (indent + 2) (item :: more) feeds).append
            (writeItems_ne_nil _ _ _) [' ']
  | .obj [] => exact .of_forall (s := " \x7b\x7d".toList) (by decide)
  | .obj (member :: more) =>
      rw [Mask.textsOf] at feeds
      cases afterKey with
      | true =>
          exact (feedsLast_writeMembers (indent + 2) (member :: more) feeds).append
            (writeMembers_ne_nil _ _ _) ('\n' :: spaces (indent + 2))
      | false =>
          exact (feedsLast_writeMembers (indent + 2) (member :: more) feeds).append
            (writeMembers_ne_nil _ _ _) [' ']

theorem feedsLast_writeItems (indent : Nat) (items : List Json)
    (feeds : ∀ text ∈ Mask.textsOfItems items, FeedsLast text) :
    FeedsLast (writeItems indent items) := by
  match items with
  | [] => exact .of_unbroken (List.forall_mem_nil _)
  | [item] =>
      rw [Mask.textsOfItems, List.forall_mem_append] at feeds
      exact (feedsLast_writeValue indent false item feeds.1).append (writeValue_ne_nil _ _ _) ['-']
  | item :: next :: more =>
      rw [Mask.textsOfItems, List.forall_mem_append] at feeds
      rw [writeItems_cons_cons]
      exact (feedsLast_writeItems indent (next :: more) feeds.2).append (writeItems_ne_nil _ _ _) _

theorem feedsLast_writeMembers (indent : Nat) (members : List (String × Json))
    (feeds : ∀ text ∈ Mask.textsOfMembers members, FeedsLast text) :
    FeedsLast (writeMembers indent members) := by
  match members with
  | [] => exact .of_unbroken (List.forall_mem_nil _)
  | [(key, value)] =>
      rw [Mask.textsOfMembers, List.forall_mem_append, List.forall_mem_cons] at feeds
      exact (feedsLast_writeValue indent _ value feeds.1.2).append (writeValue_ne_nil _ _ _) _
  | (key, value) :: next :: more =>
      rw [Mask.textsOfMembers, List.forall_mem_append] at feeds
      rw [writeMembers_cons_cons]
      exact (feedsLast_writeMembers indent (next :: more) feeds.2).append
        (writeMembers_ne_nil _ _ _) _

end

/-- A mapping whose texts end in no line break but a line feed ends its last line. -/
theorem endsLine_writeMapping {members : List (String × Json)}
    (feeds : ∀ text ∈ Mask.textsOfMembers members, FeedsLast text) :
    Text.EndsLine (writeMapping members) := by
  rw [writeMapping]
  split
  · exact Text.endsLine_append_feed ['\x7b', '\x7d']
  · exact (feedsLast_writeMembers 0 members feeds).endsLine

end Yaml

end UiMarkdown
