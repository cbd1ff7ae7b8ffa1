import UiMarkdown.Proofs.Markdown.Code
import UiMarkdown.Proofs.Markdown.Gap

/-!
# Blocks one after another

A block is read from its lines whatever came before it, as long as no other block
is open.  With a blank line between two of them, blocks on the top level are read
one after another, and each knows the lines that it stands on.
-/

namespace UiMarkdown

namespace Markdown

/-- The document as an open block, with what has been closed in it. -/
def root (blank : Bool) (drafts : List Draft) : OpenBlock :=
  { shape := .document, first := 1, blankAfter := blank, inside := drafts }

/-! ## Between blocks -/

section Follow

variable {definitions : Definitions} {container block : OpenBlock}
  {around inner : List OpenBlock} {line rest : Line}

theorem follow_of_continued
    (continued : block.continuation (!block.inside.isEmpty || !inner.isEmpty) line =
      .continued rest) :
    follow definitions container around (block :: inner) line =
      follow definitions block (container :: around) inner rest := by
  rw [follow, continued]

theorem follow_of_ended
    (ended : block.continuation (!block.inside.isEmpty || !inner.isEmpty) line = .ended) :
    follow definitions container around (block :: inner) line =
      (⟨container, around, block :: inner, definitions⟩, line, false) := by
  rw [follow, ended]

theorem follow_of_closed
    (closed : block.continuation (!block.inside.isEmpty || !inner.isEmpty) line = .closed) :
    follow definitions container around (block :: inner) line =
      (⟨container, around, block :: inner, definitions⟩, line, true) := by
  rw [follow, closed]

end Follow

/--
After a line, the document holds some drafts and one more block of a shape; it
may still be open if nothing but its last line and a blank one have to come.
-/
inductive AtRest (shape : Shape) (first last : Nat) (drafts : List Draft) : Progress → Prop where
  | closed (blank mark : Bool) :
      AtRest shape first last drafts
        ⟨[root blank (.block shape first last mark [] :: drafts)], []⟩
  | opened (blank : Bool) (block : OpenBlock)
      (ends : block.continuation false { left := [] } = .ended)
      (empty : block.inside = [])
      (closes : ∀ mark tight, { block with blankAfter := mark }.close [] last tight =
        (some (.block shape first last mark []), [])) :
      AtRest shape first last drafts ⟨[root blank drafts, block], []⟩

/-- A blank line is never text of a paragraph. -/
theorem lazyText?_of_isBlank (spine : Spine) {line : Line} (blank : line.isBlank = true) :
    spine.lazyText? line = none := by
  rw [Spine.lazyText?]
  split
  · rw [blank, Bool.not_true, Bool.and_false, if_neg Bool.false_ne_true]
  · rfl

/-- A blank line between two blocks is noted by the one before it. -/
theorem readLine_blank (tables blank : Bool) (drafts : List Draft) (number : Nat) :
    Progress.readLine tables ⟨[root blank drafts], []⟩ number [] =
      ⟨[root true (drafts.modifyHead Draft.setBlank)], []⟩ := by
  have read : Progress.readLine tables ⟨[root blank drafts], []⟩ number [] =
      (Spine.finish (⟨root blank drafts, [], [], []⟩ : Spine) tables number
        { left := [] } false).progress := rfl
  rw [read, Spine.finish, if_neg Bool.false_ne_true,
    Spine.startAll_of_isBlank tables number 1 _ rfl]
  cases drafts <;> rfl

/-- A blank line ends a block that is still open. -/
theorem AtRest.readLine_blank {shape : Shape} {first last : Nat} {drafts : List Draft}
    {progress : Progress} (rest : AtRest shape first last drafts progress) (tables : Bool) :
    ∃ mark, progress.readLine tables (last + 1) [] =
      ⟨[root true (.block shape first last mark [] :: drafts)], []⟩ := by
  cases rest with
  | closed blank mark => exact ⟨true, Markdown.readLine_blank tables blank _ _⟩
  | opened blank block ends empty closes =>
      have followed : follow [] (root blank drafts) [] [block] { left := [] } =
          (⟨root blank drafts, [], [block], []⟩, { left := [] }, false) :=
        follow_of_ended (by rw [empty]; exact ends)
      have noted : Spine.noteBlank ⟨root blank drafts, [], [block], []⟩ (last + 1) { left := [] } =
          ⟨root true drafts, [], [{ block with blankAfter := true }], []⟩ := rfl
      refine ⟨true, ?_⟩
      rw [Progress.readLine]
      dsimp only
      rw [followed]
      dsimp only
      rw [if_neg Bool.false_ne_true, Spine.startAll_of_isBlank tables _ 1 _ rfl]
      dsimp only
      rw [noted, lazyText?_of_isBlank _ rfl, Option.getD_none]
      have closed : Spine.closeInner ⟨root true drafts, [], [{ block with blankAfter := true }], []⟩
          last = ⟨root true (.block shape first last true [] :: drafts), [], [], []⟩ := by
        rw [Spine.closeInner, closeChain, closeChain]
        dsimp only [OpenBlock.push?]
        rw [closes]
        rfl
      rw [Spine.takeText, Nat.add_sub_cancel, closed]
      rfl

/-- The document at the end of a text, with all blocks closed. -/
def Progress.close (progress : Progress) (last : Nat) : List Draft × Definitions :=
  match progress.chain with
  | [] => ([], progress.definitions)
  | document :: inner =>
      let (draft?, definitions) := closeChain progress.definitions last inner
      ((document.push? draft?).inside, definitions)

theorem AtRest.close {shape : Shape} {first last : Nat} {drafts : List Draft}
    {progress : Progress} (rest : AtRest shape first last drafts progress) :
    ∃ mark, progress.close last = (.block shape first last mark [] :: drafts, []) := by
  cases rest with
  | closed blank mark => exact ⟨mark, rfl⟩
  | opened blank block ends empty closes =>
      refine ⟨block.blankAfter, ?_⟩
      rw [Progress.close]
      dsimp only
      rw [closeChain, closeChain]
      dsimp only [OpenBlock.push?]
      rw [closes block.blankAfter block.isTight]
      rfl

/-- Lines that are read as one block, wherever it begins. -/
def ReadAs (tables : Bool) (lines : List (List Char)) (shape : Shape) : Prop :=
  ∀ blank drafts number, AtRest shape (number + 1) (number + lines.length) drafts
    (Progress.readLines tables ⟨[root blank drafts], []⟩ (number + 1) lines).1

/-! ## Fences -/

/-- A fence as an open block, with its info and the lines in it. -/
def fenced (mark : Char) (size number : Nat) (content : List Char) : OpenBlock :=
  { shape := .fenced mark size 0 content, first := number }

theorem skip_replicate (size more : Nat) {mark : Char} (noTab : mark ≠ '\t') (s : List Char)
    (column : Nat) :
    Line.skip (size + more) { left := List.replicate size mark ++ s, column } =
      Line.skip more { left := s, column := column + size } := by
  induction size generalizing column with
  | zero => rw [Nat.zero_add, List.replicate_zero, List.nil_append, Nat.add_zero]
  | succ size ih =>
      rw [Nat.succ_add, List.replicate_succ, List.cons_append, Line.skip]
      dsimp only
      rw [if_neg (by simpa using noTab), ih, Nat.add_assoc, Nat.add_comm 1]

section Fence

variable {mark : Char} {size : Nat} {info : List Char}

/-- A fence takes what is left of a line as it is. -/
theorem takeText_fenced (mark : Char) (size : Nat) (blank : Bool) (drafts : List Draft)
    (first number : Nat) (content : List Char) (line : Line) :
    let spine : Spine := ⟨fenced mark size first content, [root blank drafts], [], []⟩
    let noted := spine.noteBlank number line
    (noted.lazyText? line).getD (noted.takeText number line) =
      ⟨fenced mark size first (content ++ (line.text ++ ['\n'])), [root false drafts], [], []⟩ := by
  intro spine noted
  have same : noted = ⟨fenced mark size first content, [root false drafts], [], []⟩ := by
    dsimp only [noted, spine, Spine.noteBlank]
    cases line.isBlank <;> rfl
  rw [same]
  rfl

theorem readLine_opening (tables blank : Bool) (drafts : List Draft) (number : Nat)
    (long : 3 ≤ size) (isMark : mark = '\x60' ∧ '\x60' ∉ info ∨ mark = '~')
    (apart : info.takeWhile (· == mark) = []) :
    Progress.readLine tables ⟨[root blank drafts], []⟩ number (List.replicate size mark ++ info) =
      ⟨[root false drafts, fenced mark size number (info ++ ['\n'])], []⟩ := by
  have isFence := fenceStart?_replicate_append long isMark
  rw [apart, List.length_nil, Nat.add_zero] at isFence
  have fence : Line.StartsFence { left := List.replicate size mark ++ info } :=
    ⟨rfl, 0, _, Nat.zero_le 3, rfl, Option.isSome_of_eq_some isFence⟩
  obtain ⟨n, rfl⟩ : ∃ n, size = n + 1 := ⟨size - 1, by omega⟩
  have solid : Text.isSpaceOrTab mark = false := by rcases isMark with ⟨rfl, -⟩ | rfl <;> rfl
  have isBody : Line.body { left := List.replicate (n + 1) mark ++ info } =
      List.replicate (n + 1) mark ++ info :=
    List.dropWhile_cons_of_neg (by rw [solid]; exact Bool.false_ne_true)
  have gap : Line.gap { left := List.replicate (n + 1) mark ++ info } = 0 := by
    rw [Line.gap, List.replicate_succ, List.cons_append, List.takeWhile_cons_of_neg]
    · rfl
    · rw [solid]
      exact Bool.false_ne_true
  have noTab : mark ≠ '\t' := by rcases isMark with ⟨rfl, -⟩ | rfl <;> decide
  have started := Spine.startAll_of_fenceStart? tables 1 fence (isBody.symm ▸ isFence)
    ⟨root blank drafts, [], [], []⟩ number rfl
  rw [gap, Nat.zero_add, skip_replicate (n + 1) 0 noTab] at started
  have read : Progress.readLine tables ⟨[root blank drafts], []⟩ number
      (List.replicate (n + 1) mark ++ info) =
        (Spine.finish (⟨root blank drafts, [], [], []⟩ : Spine) tables number
          { left := List.replicate (n + 1) mark ++ info } false).progress := rfl
  rw [read, Spine.finish, if_neg Bool.false_ne_true, started]
  have taken := takeText_fenced mark (n + 1) blank drafts number number []
    { left := info, column := 0 + (n + 1) }
  exact congrArg Spine.progress taken

/-- A line that does not close a fence goes into it. -/
theorem readLine_inside (tables blank : Bool) (drafts : List Draft) (first number : Nat)
    (content : List Char) {line : List Char}
    (inside : closesFence mark size (line.dropWhile Text.isSpaceOrTab) = false) :
    Progress.readLine tables ⟨[root blank drafts, fenced mark size first content], []⟩ number line =
      ⟨[root false drafts, fenced mark size first (content ++ (line ++ ['\n']))], []⟩ := by
  have goesOn : (fenced mark size first content).continuation false { left := line } =
      .continued { left := line } := by
    have open' : ¬ (Line.indent { left := line } ≤ 3 &&
        closesFence mark size (Line.body { left := line })) = true := by
      rw [Line.body, inside, Bool.and_false]
      exact Bool.false_ne_true
    rw [OpenBlock.continuation, fenced]
    dsimp only
    rw [if_neg open', Nat.zero_min, Line.skipColumns, Line.skipColumns.go]
  have followed : follow [] (root blank drafts) [] [fenced mark size first content]
      { left := line } =
        (⟨fenced mark size first content, [root blank drafts], [], []⟩,
          { left := line }, false) :=
    follow_of_continued goesOn
  rw [Progress.readLine]
  dsimp only
  rw [followed]
  dsimp only
  rw [if_neg Bool.false_ne_true]
  have literal : Spine.startAll tables number
      ⟨fenced mark size first content, [root blank drafts], [], []⟩ { left := line } =
        (⟨fenced mark size first content, [root blank drafts], [], []⟩, { left := line }) := by
    rw [Spine.startAll]
    rfl
  rw [literal]
  exact congrArg Spine.progress
    (takeText_fenced mark size blank drafts first number content { left := line })

/-- The info of a fence is its first line, and the text is what follows. -/
theorem fencedText_append {info : List Char} (oneLine : '\n' ∉ info) (literal : List Char) :
    fencedText (info ++ '\n' :: literal) =
      (unescape (Text.trimAscii (decodeEntities info)), literal) := by
  have first : (info ++ '\n' :: literal).takeWhile (· != '\n') = info := by
    rw [List.takeWhile_append_of_pos, List.takeWhile_cons_of_neg, List.append_nil]
    · decide
    · intro c mem
      rw [bne_iff_ne]
      rintro rfl
      exact oneLine mem
  rw [fencedText, first, ← List.drop_drop, List.drop_left]
  rfl

/-- The line that closes a fence belongs to it. -/
theorem readLine_closing (tables blank : Bool) (drafts : List Draft) (first number : Nat)
    {literal : List Char} (solid : Text.isSpaceOrTab mark = false) (oneLine : '\n' ∉ info) :
    Progress.readLine tables
        ⟨[root blank drafts, fenced mark (size + 1) first (info ++ '\n' :: literal)], []⟩ number
        (List.replicate (size + 1) mark) =
      ⟨[root blank (.block (.code true (unescape (Text.trimAscii (decodeEntities info))) literal)
          first number false [] :: drafts)], []⟩ := by
  have isBody : Line.body { left := List.replicate (size + 1) mark } =
      List.replicate (size + 1) mark :=
    List.dropWhile_cons_of_neg (by rw [solid]; exact Bool.false_ne_true)
  have indent : Line.indent { left := List.replicate (size + 1) mark } = 0 := by
    rw [Text.isSpaceOrTab, Bool.or_eq_false_iff] at solid
    rw [Line.indent, List.replicate_succ, blankWidth, solid.1, solid.2, if_neg Bool.false_ne_true,
      if_neg Bool.false_ne_true]
  have closes : closesFence mark (size + 1) (List.replicate (size + 1) mark) = true := by
    have all : ∀ c ∈ List.replicate (size + 1) mark, (c == mark) = true := by
      intro c mem
      rw [List.eq_of_mem_replicate mem, beq_self_eq_true]
    rw [closesFence, List.takeWhile_eq_self_iff.2 all, List.dropWhile_eq_nil_iff.2 all,
      List.length_replicate]
    simp [isGap]
  have closed : (fenced mark (size + 1) first (info ++ '\n' :: literal)).continuation false
      { left := List.replicate (size + 1) mark } = .closed := by
    rw [OpenBlock.continuation, fenced]
    dsimp only
    rw [if_pos (by rw [indent, isBody, closes]; rfl)]
  have followed : follow [] (root blank drafts) []
      [fenced mark (size + 1) first (info ++ '\n' :: literal)]
      { left := List.replicate (size + 1) mark } =
        (⟨root blank drafts, [], [fenced mark (size + 1) first (info ++ '\n' :: literal)], []⟩,
          { left := List.replicate (size + 1) mark }, true) :=
    follow_of_closed closed
  have draft : (fenced mark (size + 1) first (info ++ '\n' :: literal)).toDraft number true =
      .block (.code true (unescape (Text.trimAscii (decodeEntities info))) literal)
        first number false [] := by
    rw [OpenBlock.toDraft, fenced]
    dsimp only
    rw [fencedText_append oneLine]
  rw [Progress.readLine]
  dsimp only
  rw [followed]
  dsimp only
  rw [if_pos rfl, ← draft]
  rfl

/-- The lines of a fence are read as the code that it is. -/
theorem readLines_fence (tables blank : Bool) (drafts : List Draft) (number : Nat)
    (long : 3 ≤ size) (isMark : mark = '\x60' ∧ '\x60' ∉ info ∨ mark = '~')
    (apart : info.takeWhile (· == mark) = []) (oneLine : '\n' ∉ info) {lines : List (List Char)}
    (inside : ∀ line ∈ lines, closesFence mark size (line.dropWhile Text.isSpaceOrTab) = false) :
    (Progress.readLines tables ⟨[root blank drafts], []⟩ number
      ((List.replicate size mark ++ info) :: lines ++ [List.replicate size mark])).1 =
      ⟨[root false (.block (.code true (unescape (Text.trimAscii (decodeEntities info)))
        (Text.ofLines lines)) number (number + lines.length + 1) false [] :: drafts)], []⟩ := by
  have taken (content : List Char) (n : Nat) :
      (Progress.readLines tables ⟨[root false drafts, fenced mark size number content], []⟩ n
        lines).1 =
      ⟨[root false drafts, fenced mark size number (content ++ Text.ofLines lines)], []⟩ := by
    induction lines generalizing content n with
    | nil =>
        rw [Text.ofLines_nil, List.append_nil]
        rfl
    | cons line lines ih =>
        rw [List.forall_mem_cons] at inside
        rw [Progress.readLines, readLine_inside tables false drafts number n content inside.1,
          ih inside.2, Text.ofLines_cons, List.append_assoc]
  obtain ⟨n, rfl⟩ : ∃ n, size = n + 1 := ⟨size - 1, by omega⟩
  have solid : Text.isSpaceOrTab mark = false := by rcases isMark with ⟨rfl, -⟩ | rfl <;> rfl
  rw [List.cons_append, Progress.readLines,
    readLine_opening tables blank drafts number long isMark apart, Progress.readLines_append, taken,
    Progress.readLines, Progress.readLines, List.append_assoc, List.singleton_append,
    readLine_closing tables false drafts number _ solid oneLine, Nat.add_right_comm]

end Fence

theorem readAs_fence {mark : Char} {size : Nat} {info : List Char} (tables : Bool)
    (long : 3 ≤ size) (isMark : mark = '\x60' ∧ '\x60' ∉ info ∨ mark = '~')
    (apart : info.takeWhile (· == mark) = []) (oneLine : '\n' ∉ info) {lines : List (List Char)}
    (inside : ∀ line ∈ lines, closesFence mark size (line.dropWhile Text.isSpaceOrTab) = false) :
    ReadAs tables ((List.replicate size mark ++ info) :: lines ++ [List.replicate size mark])
      (.code true (unescape (Text.trimAscii (decodeEntities info)))
        (Text.ofLines lines)) := by
  intro blank drafts number
  rw [readLines_fence tables blank drafts (number + 1) long isMark apart oneLine inside]
  have last : number + 1 + lines.length + 1 = number +
      ((List.replicate size mark ++ info) :: lines ++ [List.replicate size mark]).length := by
    simp only [List.length_append, List.length_cons, List.length_nil]
    omega
  rw [last]
  exact .closed false false

/-! ## Blocks one after another -/

/-- The lines of blocks, with a blank line between two of them. -/
def spaced (blocks : List (List (List Char) × Shape)) : List (List Char) :=
  [[]].intercalate (blocks.map Prod.fst)

@[simp] theorem spaced_singleton (block : List (List Char) × Shape) :
    spaced [block] = block.1 := by
  rw [spaced, List.map_singleton, List.intercalate_singleton]

theorem spaced_cons_cons (block next : List (List Char) × Shape)
    (blocks : List (List (List Char) × Shape)) :
    spaced (block :: next :: blocks) = block.1 ++ [] :: spaced (next :: blocks) := by
  rw [spaced, List.map_cons, List.map_cons, List.intercalate_cons_cons, List.append_assoc]
  rfl

theorem spaced_append {blocks more : List (List (List Char) × Shape)} (nonempty : blocks ≠ [])
    (later : more ≠ []) : spaced (blocks ++ more) = spaced blocks ++ [] :: spaced more := by
  induction blocks with
  | nil => exact absurd rfl nonempty
  | cons block blocks ih =>
      cases blocks with
      | nil =>
          obtain ⟨next, more, rfl⟩ := List.exists_cons_of_ne_nil later
          rw [List.singleton_append, spaced_cons_cons, spaced_singleton]
      | cons next blocks =>
          rw [List.cons_append, List.cons_append, spaced_cons_cons, ← List.cons_append,
            ih (List.cons_ne_nil next blocks), spaced_cons_cons, List.append_assoc,
            List.cons_append]

/-- Blocks on their lines, which so many others stand before. -/
def draftsFrom : (before : Nat) → List (List (List Char) × Shape) → List Draft
  | _, [] => []
  | before, (lines, shape) :: more =>
      .block shape (before + 1) (before + lines.length) false [] ::
        draftsFrom (before + lines.length + 1) more

theorem draftsFrom_append (before : Nat) {blocks : List (List (List Char) × Shape)}
    (nonempty : blocks ≠ []) (more : List (List (List Char) × Shape)) :
    draftsFrom before (blocks ++ more) =
      draftsFrom before blocks ++ draftsFrom (before + (spaced blocks).length + 1) more := by
  induction blocks generalizing before with
  | nil => exact absurd rfl nonempty
  | cons block blocks ih =>
      obtain ⟨lines, shape⟩ := block
      cases blocks with
      | nil =>
          rw [spaced_singleton, List.singleton_append, draftsFrom, draftsFrom, draftsFrom,
            List.singleton_append]
      | cons next blocks =>
          have later := ih (before + lines.length + 1) (List.cons_ne_nil next blocks)
          have count : before + lines.length + 1 + (spaced (next :: blocks)).length + 1 =
              before + (spaced ((lines, shape) :: next :: blocks)).length + 1 := by
            rw [spaced_cons_cons, List.length_append, List.length_cons]
            dsimp only
            omega
          rw [List.cons_append, draftsFrom, later, count, draftsFrom.eq_2 before, List.cons_append]

/--
Blocks with a blank line between two of them are read one after another.  What is
left out are the marks for the blank lines.
-/
theorem close_readLines_spaced {tables : Bool} {blocks : List (List (List Char) × Shape)}
    (read : ∀ block ∈ blocks, ReadAs tables block.1 block.2) (nonempty : blocks ≠ [])
    (blank : Bool) (drafts : List Draft) (before : Nat) :
    ∃ closed,
      (Progress.readLines tables ⟨[root blank drafts], []⟩ (before + 1) (spaced blocks)).1.close
        (before + (spaced blocks).length) = (closed, []) ∧
      closed.map Draft.setBlank =
        ((draftsFrom before blocks).reverse ++ drafts).map Draft.setBlank := by
  induction blocks generalizing blank drafts before with
  | nil => exact absurd rfl nonempty
  | cons block blocks ih =>
      obtain ⟨lines, shape⟩ := block
      obtain ⟨here, later⟩ := List.forall_mem_cons.1 read
      have rest := here blank drafts before
      cases blocks with
      | nil =>
          obtain ⟨mark, closed⟩ := rest.close
          rw [spaced_singleton]
          exact ⟨_, closed, rfl⟩
      | cons next blocks =>
          obtain ⟨mark, noted⟩ := rest.readLine_blank tables
          obtain ⟨closed, isClosed, same⟩ := ih later (List.cons_ne_nil next blocks) true
            (.block shape (before + 1) (before + lines.length) mark [] :: drafts)
            (before + lines.length + 1)
          have count : before + (spaced ((lines, shape) :: next :: blocks)).length =
              before + lines.length + 1 + (spaced (next :: blocks)).length := by
            rw [spaced_cons_cons, List.length_append, List.length_cons]
            dsimp only
            omega
          refine ⟨closed, ?_, ?_⟩
          · rw [count, spaced_cons_cons, Progress.readLines_append, Progress.readLines,
              Nat.add_right_comm before 1, noted]
            exact isClosed
          · rw [same, draftsFrom.eq_def before]
            simp [Draft.setBlank]

theorem snd_readLines (tables : Bool) (progress : Progress) (number : Nat)
    (lines : List (List Char)) :
    (progress.readLines tables number lines).2 = number + lines.length - 1 := by
  induction lines generalizing progress number with
  | nil => rfl
  | cons line lines ih =>
      rw [Progress.readLines, ih, List.length_cons]
      omega

theorem toPlaced_setBlank (tasks : Bool) (setting : Setting) (draft : Draft) :
    draft.setBlank.toPlaced tasks setting = draft.toPlaced tasks setting := by
  obtain ⟨shape, first, last, blank, drafts⟩ := draft
  rw [Draft.setBlank, Draft.toPlaced, Draft.toPlaced, Draft.toBlock.eq_def, Draft.toBlock.eq_def]

/-- Blocks on their lines as top level blocks, in a text without definitions. -/
def placedFrom (extensions : Extensions) (before : Nat)
    (blocks : List (List (List Char) × Shape)) : List Placed :=
  (draftsFrom before blocks).map (Draft.toPlaced extensions.tasks ⟨extensions.strokes, []⟩)

/-- The blocks of a text are those on its lines; the text may start with a blank line. -/
theorem parse_spaced (extensions : Extensions) {s : List Char} {lead : List (List Char)}
    (isLead : lead = [] ∨ lead = [[]]) {blocks : List (List (List Char) × Shape)}
    (lines : textLines s = lead ++ spaced blocks)
    (read : ∀ block ∈ blocks, ReadAs extensions.tables block.1 block.2) (nonempty : blocks ≠ []) :
    parse extensions s = placedFrom extensions lead.length blocks := by
  obtain ⟨blank, before⟩ : ∃ blank, ∀ more,
      (Progress.readLines extensions.tables ⟨[root false []], []⟩ 1 (lead ++ more)).1 =
        (Progress.readLines extensions.tables ⟨[root blank []], []⟩
          (lead.length + 1) more).1 := by
    rcases isLead with rfl | rfl
    · exact ⟨false, fun _ => rfl⟩
    · refine ⟨true, fun more => ?_⟩
      rw [List.singleton_append, Progress.readLines, readLine_blank]
      rfl
  obtain ⟨closed, isClosed, same⟩ := close_readLines_spaced read nonempty blank [] lead.length
  have drafts : readDrafts extensions.tables s = (closed, []) := by
    have last := snd_readLines extensions.tables ⟨[root false []], []⟩ 1 (textLines s)
    rw [← isClosed, ← before, ← lines]
    have length : lead.length + (spaced blocks).length = 1 + (textLines s).length - 1 := by
      rw [lines, List.length_append]
      omega
    rw [length, ← last]
    rfl
  have unmarked (drafts : List Draft) :
      drafts.map (Draft.toPlaced extensions.tasks ⟨extensions.strokes, []⟩) =
        (drafts.map Draft.setBlank).map
          (Draft.toPlaced extensions.tasks ⟨extensions.strokes, []⟩) := by
    rw [List.map_map]
    exact List.map_congr_left fun draft _ => (toPlaced_setBlank _ _ draft).symm
  rw [parse, drafts]
  dsimp only
  rw [unmarked, same, ← unmarked, List.append_nil, List.map_reverse, List.reverse_reverse,
    placedFrom]

end Markdown

end UiMarkdown
