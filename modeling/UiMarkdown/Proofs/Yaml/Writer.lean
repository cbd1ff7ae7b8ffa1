import Mathlib.Data.List.Basic
import UiMarkdown.Proofs.Number.Numeral
import UiMarkdown.Yaml.Writer

/-!
# Lines of written Yaml

A line that starts with three hyphens or three points would end a document.
Inside a member of a mapping, a line starts with white space, with the colon
after a long key or with the hyphen of an item, and a key with a mark is quoted.
So written Yaml has no such line.
-/

namespace UiMarkdown

namespace Yaml

def documentMarks : List (List Char) :=
  [['-', '-', '-'], ['.', '.', '.']]

/-- A text is empty or starts no document mark, however it goes on. -/
def Unmarked (s : List Char) : Prop :=
  s = [] ∨ ∀ mark ∈ documentMarks, ¬ s <+: mark ∧ ¬ mark <+: s

/-- No line of a text but the first one can start with a document mark. -/
def Inside (s : List Char) : Prop :=
  ∀ before after, s = before ++ '\n' :: after → Unmarked after

namespace Unmarked

theorem of_head {c : Char} (hyphen : c ≠ '-') (point : c ≠ '.') (rest : List Char) :
    Unmarked (c :: rest) := by
  right
  intro mark mem
  simp only [documentMarks, List.mem_cons, List.not_mem_nil, or_false] at mem
  rcases mem with rfl | rfl <;>
    simp [List.cons_prefix_cons, hyphen, point, hyphen.symm, point.symm]

theorem item (rest : List Char) : Unmarked ('-' :: ' ' :: rest) := by
  right
  intro mark mem
  simp only [documentMarks, List.mem_cons, List.not_mem_nil, or_false] at mem
  rcases mem with rfl | rfl <;> simp [List.cons_prefix_cons]

theorem not_prefix {s mark : List Char} (unmarked : Unmarked s) (mem : mark ∈ documentMarks) :
    ¬ mark <+: s := by
  rcases unmarked with rfl | apart
  · intro starts
    rw [List.prefix_nil.1 starts] at mem
    exact absurd mem (by decide)
  · exact (apart mark mem).2

theorem append {a : List Char} (unmarked : Unmarked a) (nonempty : a ≠ []) (b : List Char) :
    Unmarked (a ++ b) := by
  right
  intro mark mem
  obtain ⟨extends', starts⟩ := (unmarked.resolve_left nonempty) mark mem
  constructor
  · intro before
    exact extends' ((List.prefix_append a b).trans before)
  · intro before
    rcases List.prefix_or_prefix_of_prefix before (List.prefix_append a b) with long | short
    · exact starts long
    · exact extends' short

theorem spaces {s : List Char} (unmarked : Unmarked s) (n : Nat) : Unmarked (spaces n ++ s) := by
  cases n with
  | zero => exact unmarked
  | succ n => exact of_head (by decide) (by decide) _

end Unmarked

namespace Inside

theorem of_not_mem {s : List Char} (oneLine : '\n' ∉ s) : Inside s := by
  rintro before after rfl
  exact absurd (List.mem_append_right before List.mem_cons_self) oneLine

/-- Texts adjoin if the second one starts no mark where it starts a line. -/
theorem append {a b : List Char} (first : Inside a) (second : Inside b)
    (starts : '\n' ∈ a.getLast? → Unmarked b) : Inside (a ++ b) := by
  intro before after split
  obtain ⟨more, rfl, later⟩ | ⟨more, rfl, later⟩ := List.append_eq_append_iff.1 split
  · exact second more after later
  · cases more with
    | nil => exact second [] after later.symm
    | cons c more =>
        rw [List.cons_append, List.cons.injEq] at later
        obtain ⟨rfl, rfl⟩ := later
        cases more with
        | nil => exact starts List.getLast?_concat
        | cons d more => exact (first before _ rfl).append (List.cons_ne_nil d more) b

theorem append_of_not_mem {a b : List Char} (oneLine : '\n' ∉ a) (inside : Inside b) :
    Inside (a ++ b) :=
  (of_not_mem oneLine).append inside fun last =>
    absurd (List.mem_of_mem_getLast? last) oneLine

theorem cons {c : Char} {s : List Char} (inside : Inside s) (starts : c = '\n' → Unmarked s) :
    Inside (c :: s) := by
  intro before after split
  cases before with
  | nil =>
      obtain ⟨feed, rfl⟩ := List.cons.inj split
      exact starts feed
  | cons d before => exact inside before after (List.cons.inj split).2

end Inside

/-! ## Scalars -/

theorem feed_not_mem_spaces (n : Nat) : '\n' ∉ spaces n := by
  intro mem
  have same := List.eq_of_mem_replicate mem
  cases same

theorem isNumeral_of_mem_writeNumber (n : Number) :
    ∀ c ∈ writeNumber n, FloatLayout.isNumeral c = true := by
  cases n with
  | int i => exact FloatLayout.isNumeral_of_mem_integer i
  | float x => exact numberLayout.isNumeral_of_mem_render x

theorem feed_not_mem_writeNumber (n : Number) : '\n' ∉ writeNumber n := by
  intro mem
  exact absurd (isNumeral_of_mem_writeNumber n _ mem) (by decide)

theorem feed_not_mem_writeHex (size n : Nat) : '\n' ∉ writeHex size n := by
  have digit : ∀ k < 16, upperHexDigit k ≠ '\n' := by decide
  induction size generalizing n with
  | zero => exact List.not_mem_nil
  | succ size ih =>
      rw [writeHex, List.mem_append, List.mem_singleton]
      rintro (mem | same)
      · exact ih _ mem
      · exact digit (n % 16) (Nat.mod_lt _ (by decide)) same.symm

theorem feed_not_mem_escapeChar (c : Char) : '\n' ∉ escapeChar c := by
  have letters : ∀ pair ∈ escapeLetters, pair.2 ≠ '\n' := by decide
  rw [escapeChar]
  split
  · rename_i letter found
    obtain ⟨before, after, letters', -⟩ := List.lookup_eq_some_iff.1 found
    have known : (c, letter) ∈ escapeLetters := by
      rw [letters']
      exact List.mem_append_right before List.mem_cons_self
    simp [(letters _ known).symm]
  · rename_i missing
    split
    · rw [List.mem_singleton]
      rintro rfl
      cases missing
    · split
      · simp [feed_not_mem_writeHex]
      · split <;> simp [feed_not_mem_writeHex]

theorem feed_not_mem_flatMap {f : Char → List Char} {s : List Char}
    (oneLine : ∀ c ∈ s, '\n' ∉ f c) : '\n' ∉ s.flatMap f := by
  rw [List.mem_flatMap]
  rintro ⟨c, mem, feed⟩
  exact oneLine c mem feed

theorem feed_not_mem_indentLines {s : List Char} (oneLine : '\n' ∉ s) (indent : Nat)
    (lineStart : Bool) : '\n' ∉ indentLines indent lineStart s := by
  induction s generalizing lineStart with
  | nil => exact List.not_mem_nil
  | cons c s ih =>
      rw [List.mem_cons, not_or] at oneLine
      rw [indentLines]
      split
      · exact List.not_mem_cons_of_ne_of_not_mem oneLine.1 (ih oneLine.2 true)
      · split
        · rw [List.mem_append, List.mem_cons]
          rintro (mem | same | mem)
          · exact feed_not_mem_spaces indent mem
          · exact oneLine.1 same
          · exact ih oneLine.2 false mem
        · exact List.not_mem_cons_of_ne_of_not_mem oneLine.1 (ih oneLine.2 false)

theorem feed_not_mem_singleQuoted {s : List Char} (oneLine : '\n' ∉ s) (indent : Nat) :
    '\n' ∉ singleQuoted indent s := by
  have body : '\n' ∉ (indentLines indent false s).flatMap
      fun c => if c == '\'' then [c, c] else [c] := by
    refine feed_not_mem_flatMap fun c mem => ?_
    have other : '\n' ≠ c := fun same => feed_not_mem_indentLines oneLine indent false (same ▸ mem)
    split <;> simp [other]
  have last (b : Bool) : '\n' ∉ (if b then spaces indent else []) := by
    cases b
    · exact List.not_mem_nil
    · exact feed_not_mem_spaces indent
  rw [singleQuoted, List.mem_append, List.cons_append, List.mem_cons, List.mem_append,
    List.mem_singleton]
  rintro ((same | mem | mem) | same)
  · cases same
  · exact body mem
  · exact last _ mem
  · cases same

theorem feed_not_mem_doubleQuoted (s : List Char) :
    '\n' ∉ '"' :: s.flatMap escapeChar ++ ['"'] := by
  have body : '\n' ∉ s.flatMap escapeChar :=
    feed_not_mem_flatMap fun c _ => feed_not_mem_escapeChar c
  simp [body]

theorem feed_not_mem_literalSigns (s : List Char) : '\n' ∉ literalSigns s := by
  rw [literalSigns, List.mem_append]
  rintro (mem | mem)
  · split at mem <;> simp at mem
  · split at mem
    · split at mem
      · simp at mem
      · split at mem <;> simp at mem
    · simp at mem

/-- Only a text with line feeds is written on more than one line. -/
theorem feed_mem_of_style {s : List Char} (style : Style.ofText s ≠ .double) :
    '\n' ∈ s ↔ Style.ofText s = .literal := by
  rw [Style.ofText] at style ⊢
  cases contains : s.contains '\n' with
  | true =>
      have mem : '\n' ∈ s := List.contains_iff_mem.1 contains
      simp only [contains, if_true, mem, true_iff] at style ⊢
      split at style
      · exact absurd rfl style
      · rename_i block
        rw [if_neg block]
  | false =>
      have missing : '\n' ∉ s := fun mem => by
        rw [List.contains_iff_mem.2 mem] at contains
        cases contains
      simp only [missing, false_iff, Bool.false_eq_true, if_false]
      split
      · exact fun same => nomatch same
      · split <;> exact fun same => nomatch same

theorem isPlain_of_style {s : List Char} (style : Style.ofText s = .plain) :
    Style.isPlain s = true := by
  rw [Style.ofText] at style
  split at style
  · split at style <;> cases style
  · split at style
    · assumption
    · split at style <;> cases style

theorem feed_not_mem_writeText {s : List Char} (oneLine : '\n' ∉ s) (indent : Nat) :
    '\n' ∉ writeText indent s := by
  rw [writeText]
  cases style : Style.ofText s with
  | plain => exact oneLine
  | single => exact feed_not_mem_singleQuoted oneLine indent
  | double => exact feed_not_mem_doubleQuoted s
  | literal =>
      rw [← feed_mem_of_style (by rw [style]; exact fun same => nomatch same)] at style
      exact absurd style oneLine

theorem unmarked_indentLines (indent : Nat) (s : List Char) :
    Unmarked (indentLines (indent + 1) true s) := by
  cases s with
  | nil => exact .inl rfl
  | cons c s =>
      rw [indentLines]
      split
      · rename_i breaks
        refine .of_head ?_ ?_ _
        · rintro rfl
          cases breaks
        · rintro rfl
          cases breaks
      · exact .of_head (by decide) (by decide) _

theorem inside_indentLines (indent : Nat) (lineStart : Bool) (s : List Char) :
    Inside (indentLines (indent + 1) lineStart s) := by
  induction s generalizing lineStart with
  | nil => exact .of_not_mem List.not_mem_nil
  | cons c s ih =>
      rw [indentLines]
      split
      · exact (ih true).cons fun _ => unmarked_indentLines indent s
      · rename_i unbroken
        have inside : Inside (c :: indentLines (indent + 1) false s) := by
          refine (ih false).cons ?_
          rintro rfl
          cases unbroken rfl
        split
        · exact inside.append_of_not_mem (feed_not_mem_spaces _)
        · exact inside

theorem inside_writeText (indent : Nat) (s : List Char) : Inside (writeText (indent + 1) s) := by
  have oneLine (style : Style.ofText s = .plain ∨ Style.ofText s = .single) : '\n' ∉ s := by
    rcases style with style | style <;>
      simp [feed_mem_of_style, style]
  rw [writeText]
  cases style : Style.ofText s with
  | plain => exact .of_not_mem (oneLine (.inl style))
  | single => exact .of_not_mem (feed_not_mem_singleQuoted (oneLine (.inr style)) _)
  | double => exact .of_not_mem (feed_not_mem_doubleQuoted s)
  | literal =>
      have bar : '\n' ∉ '|' :: literalSigns s :=
        List.not_mem_cons_of_ne_of_not_mem (by decide) (feed_not_mem_literalSigns s)
      have lines := (inside_indentLines indent true s).cons fun _ : '\n' = '\n' =>
        unmarked_indentLines indent s
      exact lines.append_of_not_mem bar

/-! ## Keys and values -/

/-- A plain key starts no document mark. -/
theorem unmarked_of_hasMark {s : List Char} (plain : Style.hasMark s = false) :
    Unmarked (s ++ [':']) := by
  have unmarked : ∀ mark ∈ documentMarks, ¬ mark <+: s := by
    intro mark mem starts
    cases s with
    | nil => simp [documentMarks, List.prefix_nil.1 starts] at mem
    | cons c s =>
        simp only [Style.hasMark, Bool.or_eq_false_iff] at plain
        simp only [documentMarks, List.mem_cons, List.not_mem_nil, or_false] at mem
        rcases mem with rfl | rfl
        · rw [List.isPrefixOf_iff_prefix.2 starts] at plain
          cases plain.1.1.1.1
        · rw [List.isPrefixOf_iff_prefix.2 starts] at plain
          cases plain.1.1.1.2
  have noColon : ∀ mark ∈ documentMarks, ':' ∉ mark := by decide
  right
  intro mark mem
  constructor
  · intro short
    exact noColon mark mem (short.subset (List.mem_append_right s List.mem_cons_self))
  · intro long
    rcases List.prefix_concat_iff.1 long with same | starts
    · refine noColon mark mem ?_
      rw [same]
      exact List.mem_append_right s List.mem_cons_self
    · exact unmarked mark mem starts

theorem writeKey_ne_nil (indent : Nat) (key : List Char) : writeKey indent key ≠ [] := by
  rw [writeKey]
  split <;> simp

theorem unmarked_writeKey (indent : Nat) (key : List Char) : Unmarked (writeKey indent key) := by
  rw [writeKey]
  split
  · rw [writeText]
    cases style : Style.ofText key with
    | plain =>
        have plain := isPlain_of_style style
        simp only [Style.isPlain, Bool.and_eq_true, Bool.not_eq_true'] at plain
        exact unmarked_of_hasMark plain.1.1.2
    | single => exact .of_head (by decide) (by decide) _
    | double => exact .of_head (by decide) (by decide) _
    | literal => exact .of_head (by decide) (by decide) _
  · exact .of_head (by decide) (by decide) _

theorem inside_endLine {s : List Char} (inside : Inside s) : Inside (endLine s) := by
  rw [endLine]
  split
  · exact inside
  · refine inside.append ?_ fun _ => .of_head (by decide) (by decide) _
    exact (Inside.of_not_mem List.not_mem_nil).cons fun _ => .inl rfl

theorem inside_writeKey (indent : Nat) (key : List Char) : Inside (writeKey indent key) := by
  have colon : Inside (spaces indent ++ [':']) :=
    (Inside.of_not_mem (by decide)).append_of_not_mem (feed_not_mem_spaces indent)
  have colon' : Unmarked (spaces indent ++ [':']) :=
    Unmarked.spaces (.of_head (by decide) (by decide) _) indent
  rw [writeKey]
  split
  · rename_i short
    have oneLine : '\n' ∉ key := by
      intro mem
      simp only [isShortKey, Bool.and_eq_true, Bool.not_eq_true', List.any_eq_false] at short
      exact short.1 _ mem rfl
    exact (Inside.of_not_mem (by decide)).append_of_not_mem (feed_not_mem_writeText oneLine _)
  · rw [List.append_assoc]
    refine Inside.append_of_not_mem (a := ['?', ' ']) (by decide) ?_
    exact (inside_endLine (inside_writeText _ key)).append colon fun _ => colon'

/-- A value stands on the line where its key ends. -/
theorem inside_member {indent : Nat} {key value : List Char} (inside : Inside value) :
    Inside (writeKey indent key ++ value) := by
  have ends : (writeKey indent key).getLast? = some ':' := by
    rw [writeKey]
    split <;> exact List.getLast?_concat
  refine (inside_writeKey indent key).append inside fun feed => ?_
  rw [ends] at feed
  cases feed

theorem exists_endLine_eq (s : List Char) : ∃ ending, endLine s = s ++ ending := by
  rw [endLine]
  split
  · exact ⟨[], (List.append_nil s).symm⟩
  · exact ⟨['\n'], rfl⟩

/-- Within a sequence, a value follows its hyphen on the same line. -/
theorem exists_writeValue_eq (indent : Nat) (value : Json) :
    ∃ rest, writeValue indent false value = ' ' :: rest := by
  rcases value with _ | _ | n | s | items | members
  · exact ⟨_, rfl⟩
  · rename_i b
    cases b <;> exact ⟨_, rfl⟩
  · exact ⟨_, rfl⟩
  · exact ⟨_, rfl⟩
  · cases items <;> exact ⟨_, rfl⟩
  · cases members <;> exact ⟨_, rfl⟩

theorem writeItems_cons_cons (indent : Nat) (item next : Json) (more : List Json) :
    writeItems indent (item :: next :: more) =
      endLine ('-' :: writeValue indent false item) ++ spaces indent ++
        writeItems indent (next :: more) :=
  rfl

theorem writeMembers_cons_cons (indent : Nat) (member next : String × Json)
    (more : List (String × Json)) :
    writeMembers indent (member :: next :: more) =
      endLine (writeKey indent member.1.toList ++
          writeValue indent (isShortKey member.1.toList) member.2) ++
        spaces indent ++ writeMembers indent (next :: more) :=
  rfl

theorem writeMembers_ne_nil (indent : Nat) (member : String × Json)
    (more : List (String × Json)) : writeMembers indent (member :: more) ≠ [] := by
  cases more with
  | nil =>
      exact fun empty => writeKey_ne_nil _ _ (List.append_eq_nil_iff.1 empty).1
  | cons next more =>
      obtain ⟨ending, line⟩ := exists_endLine_eq (writeKey indent member.1.toList ++
        writeValue indent (isShortKey member.1.toList) member.2)
      rw [writeMembers_cons_cons, line]
      simp [writeKey_ne_nil]

theorem unmarked_writeItems (indent : Nat) (items : List Json) :
    Unmarked (writeItems indent items) := by
  rcases items with _ | ⟨item, _ | ⟨next, more⟩⟩
  · exact .inl rfl
  · obtain ⟨rest, value⟩ := exists_writeValue_eq indent item
    change Unmarked ('-' :: writeValue indent false item)
    rw [value]
    exact .item rest
  · obtain ⟨rest, value⟩ := exists_writeValue_eq indent item
    obtain ⟨ending, line⟩ := exists_endLine_eq ('-' :: ' ' :: rest)
    rw [writeItems_cons_cons, value, line]
    exact .item _

theorem unmarked_writeMembers (indent : Nat) (members : List (String × Json)) :
    Unmarked (writeMembers indent members) := by
  rcases members with _ | ⟨⟨key, value⟩, _ | ⟨next, more⟩⟩
  · exact .inl rfl
  · exact (unmarked_writeKey indent key.toList).append (writeKey_ne_nil _ _) _
  · obtain ⟨ending, line⟩ := exists_endLine_eq (writeKey indent key.toList ++
      writeValue indent (isShortKey key.toList) value)
    rw [writeMembers_cons_cons, line]
    simp only [List.append_assoc]
    exact (unmarked_writeKey indent key.toList).append (writeKey_ne_nil _ _) _

mutual

theorem inside_writeValue (indent : Nat) (afterKey : Bool) (value : Json) :
    Inside (writeValue indent afterKey value) := by
  -- After a hyphen, a value starts on the line; after a key, blocks start on the next one.
  have blank (s : List Char) (inside : Inside s) : Inside (' ' :: s) :=
    inside.cons fun same => nomatch same
  match value with
  | .null => exact .of_not_mem (s := " null".toList) (by decide)
  | .bool true => exact .of_not_mem (s := " true".toList) (by decide)
  | .bool false => exact .of_not_mem (s := " false".toList) (by decide)
  | .num n => exact blank _ (.of_not_mem (feed_not_mem_writeNumber n))
  | .str s => exact blank _ (inside_writeText _ s.toList)
  | .arr [] => exact .of_not_mem (s := " []".toList) (by decide)
  | .arr (item :: more) =>
      cases afterKey with
      | true =>
          refine Inside.cons ?_ fun _ => (unmarked_writeItems indent (item :: more)).spaces indent
          exact (inside_writeItems indent (item :: more)).append_of_not_mem
            (feed_not_mem_spaces indent)
      | false => exact blank _ (inside_writeItems (indent + 2) (item :: more))
  | .obj [] => exact .of_not_mem (s := " \x7b\x7d".toList) (by decide)
  | .obj (member :: more) =>
      cases afterKey with
      | true =>
          refine Inside.cons ?_ fun _ =>
            (unmarked_writeMembers (indent + 2) (member :: more)).spaces (indent + 2)
          exact (inside_writeMembers (indent + 2) (member :: more)).append_of_not_mem
            (feed_not_mem_spaces (indent + 2))
      | false => exact blank _ (inside_writeMembers (indent + 2) (member :: more))

theorem inside_writeItems (indent : Nat) (items : List Json) :
    Inside (writeItems indent items) := by
  match items with
  | [] => exact .of_not_mem List.not_mem_nil
  | [item] => exact (inside_writeValue indent false item).cons fun same => nomatch same
  | item :: next :: more =>
      have first : Inside ('-' :: writeValue indent false item) :=
        (inside_writeValue indent false item).cons fun same => nomatch same
      have others := inside_writeItems indent (next :: more)
      rw [writeItems_cons_cons, List.append_assoc]
      refine (inside_endLine first).append ?_ fun _ => ?_
      · exact others.append_of_not_mem (feed_not_mem_spaces indent)
      · exact (unmarked_writeItems indent (next :: more)).spaces indent

theorem inside_writeMembers (indent : Nat) (members : List (String × Json)) :
    Inside (writeMembers indent members) := by
  match members with
  | [] => exact .of_not_mem List.not_mem_nil
  | [(key, value)] => exact inside_member (inside_writeValue indent _ value)
  | (key, value) :: next :: more =>
      have first : Inside (writeKey indent key.toList ++
          writeValue indent (isShortKey key.toList) value) :=
        inside_member (inside_writeValue indent _ value)
      have others := inside_writeMembers indent (next :: more)
      rw [writeMembers_cons_cons, List.append_assoc]
      refine (inside_endLine first).append ?_ fun _ => ?_
      · exact others.append_of_not_mem (feed_not_mem_spaces indent)
      · exact (unmarked_writeMembers indent (next :: more)).spaces indent

end

/-- No line of the text of a mapping starts with a document mark. -/
theorem inside_writeMapping (members : List (String × Json)) : Inside (writeMapping members) := by
  rw [writeMapping]
  split
  · exact (Inside.of_not_mem (s := "\x7b\x7d".toList) (by decide)).append
      ((Inside.of_not_mem List.not_mem_nil).cons fun _ => .inl rfl)
      fun _ => .of_head (by decide) (by decide) _
  · exact inside_endLine (inside_writeMembers 0 members)

theorem unmarked_writeMapping (members : List (String × Json)) :
    Unmarked (writeMapping members) := by
  rw [writeMapping]
  split
  · exact .of_head (by decide) (by decide) _
  · obtain ⟨ending, lines⟩ := exists_endLine_eq (writeMembers 0 members)
    have unmarked := unmarked_writeMembers 0 members
    rw [lines]
    rcases members with _ | ⟨member, more⟩
    · contradiction
    · exact unmarked.append (writeMembers_ne_nil 0 member more) ending

end Yaml

end UiMarkdown
