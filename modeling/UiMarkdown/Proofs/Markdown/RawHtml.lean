import Mathlib.Data.List.Basic
import UiMarkdown.Compile.Fragment

/-!
# Raw Html in blocks

The raw pieces of a block are listed in document order, at whatever depth they
stand.  A block has a fragment exactly when there are none, and otherwise the
first one is the error.
-/

namespace UiMarkdown

/-- Every value that a result may have has a property. -/
structure Yields {ε α : Type} (p : α → Prop) (result : Except ε α) : Prop where
  holds : ∀ value, result = .ok value → p value

namespace Yields

variable {ε α β : Type} {p : α → Prop} {q : β → Prop} {result : Except ε α}

theorem ok {value : α} (holds : p value) : Yields p (.ok value : Except ε α) :=
  ⟨fun _ same => Except.ok.inj same ▸ holds⟩

theorem error (error : ε) : Yields p (.error error) :=
  ⟨fun _ same => by cases same⟩

theorem bind {next : α → Except ε β} (first : Yields p result)
    (second : ∀ value, p value → Yields q (next value)) : Yields q (result >>= next) := by
  cases result with
  | error error => exact .error error
  | ok value => exact second value (first.holds value rfl)

theorem map {f : α → β} (first : Yields p result) (step : ∀ value, p value → q (f value)) :
    Yields q (result.map f) := by
  cases result with
  | error error => exact .error error
  | ok value => exact .ok (step value (first.holds value rfl))

theorem map_of_forall {f : α → β} (each : ∀ value, q (f value)) : Yields q (result.map f) := by
  cases result with
  | error error => exact .error error
  | ok value => exact .ok (each value)

theorem mapM {f : β → Except ε α} (each : ∀ item, Yields p (f item)) (items : List β) :
    Yields (fun values => ∀ value ∈ values, p value) (items.mapM f) := by
  induction items with
  | nil => exact .ok (List.forall_mem_nil _)
  | cons item more ih =>
      rw [List.mapM_cons]
      apply (each item).bind
      intro value holds
      apply ih.bind
      intro values all
      exact .ok (List.forall_mem_cons.2 ⟨holds, all⟩)

end Yields

namespace Markdown

/-- A result that is a value if there are no raw pieces, and else the first of them as error. -/
def Raises {α : Type} (pieces : List (List Char)) (result : Except (List Char) α) : Prop :=
  match pieces with
  | [] => ∃ value, result = .ok value
  | piece :: _ => result = .error piece

namespace Raises

theorem ok {α : Type} (value : α) : Raises [] (.ok value : Except (List Char) α) :=
  ⟨value, rfl⟩

theorem bind {α β : Type} {pieces more : List (List Char)} {result : Except (List Char) α}
    {next : α → Except (List Char) β} (first : Raises pieces result)
    (second : ∀ value, Raises more (next value)) : Raises (pieces ++ more) (result >>= next) := by
  cases pieces with
  | nil =>
      obtain ⟨value, rfl⟩ := first
      exact second value
  | cons piece rest =>
      rw [Raises] at first
      rw [first]
      rfl

theorem bind_ok {α β : Type} {pieces : List (List Char)} {result : Except (List Char) α}
    (first : Raises pieces result) (f : α → β) :
    Raises pieces (result >>= fun value => .ok (f value)) := by
  have both := first.bind fun value => ok (f value)
  rwa [List.append_nil] at both

theorem map {α β : Type} {pieces : List (List Char)} {result : Except (List Char) α}
    (first : Raises pieces result) (f : α → β) : Raises pieces (result.map f) := by
  have bound := first.bind_ok f
  cases result <;> exact bound

theorem mapM {α β : Type} {pieces : α → List (List Char)} {f : α → Except (List Char) β}
    (each : ∀ item, Raises (pieces item) (f item)) (items : List α) :
    Raises (items.flatMap pieces) (items.mapM f) := by
  induction items with
  | nil => exact ok []
  | cons item items ih =>
      rw [List.mapM_cons, List.flatMap_cons]
      apply (each item).bind
      intro value
      exact ih.bind_ok fun values => value :: values

end Raises

namespace Inline

mutual

def rawPieces : Inline → List (List Char)
  | .html source => [source]
  | .emphasis children | .strong children | .strike children | .link _ children
  | .image _ children | .group children => rawPiecesOfAll children
  | .text _ | .softBreak | .hardBreak | .code _ => []

def rawPiecesOfAll : List Inline → List (List Char)
  | [] => []
  | inline :: more => rawPieces inline ++ rawPiecesOfAll more

end

mutual

theorem raises_toFragment : (inline : Inline) → Raises inline.rawPieces inline.toFragment
  | .text _ | .softBreak | .hardBreak | .code _ => by
      simp only [rawPieces, toFragment]
      exact .ok _
  | .html _ => by
      simp only [rawPieces, toFragment]
      rfl
  | .emphasis children | .strong children | .strike children | .link _ children
  | .image _ children => by
      simp only [rawPieces, toFragment]
      exact (raises_toFragments children).map _
  | .group children => by
      simp only [rawPieces, toFragment]
      exact raises_toFragments children

theorem raises_toFragments :
    (inlines : List Inline) → Raises (rawPiecesOfAll inlines) (toFragments inlines)
  | [] => by
      simp only [rawPiecesOfAll, toFragments]
      exact .ok _
  | inline :: more => by
      simp only [rawPiecesOfAll, toFragments]
      apply (raises_toFragment inline).bind
      intro nodes
      exact (raises_toFragments more).bind_ok fun later => nodes ++ later

end

theorem raises_mergedFragments (content : List Inline) :
    Raises (rawPiecesOfAll content) (mergedFragments content) :=
  (raises_toFragments content).map _

theorem raises_rowFragment (cells : List (List Inline)) :
    Raises (cells.flatMap rawPiecesOfAll) (rowFragment cells) := by
  have each (cell : List Inline) :
      Raises (rawPiecesOfAll cell) ((mergedFragments cell).map Fragment.tableCell) :=
    (raises_mergedFragments cell).map _
  exact (Raises.mapM each cells).bind_ok Fragment.tableRow

end Inline

namespace Block

mutual

def rawPieces : Block → List (List Char)
  | .html source => [source]
  | .paragraph content | .heading _ content => Inline.rawPiecesOfAll content
  | .quote children | .list _ _ children | .item _ children | .group children =>
      rawPiecesOfAll children
  | .table rows => rows.flatMap fun cells => cells.flatMap Inline.rawPiecesOfAll
  | .code _ _ _ | .rule | .frontmatter _ => []

def rawPiecesOfAll : List Block → List (List Char)
  | [] => []
  | block :: more => rawPieces block ++ rawPiecesOfAll more

end

mutual

/-- The fragment of a block, or its first raw piece as error. -/
theorem raises_toFragment : (block : Block) → Raises block.rawPieces block.toFragment
  | .paragraph content | .heading _ content => by
      simp only [rawPieces, toFragment]
      exact (Inline.raises_mergedFragments content).map _
  | .quote children | .list _ _ children | .item _ children => by
      simp only [rawPieces, toFragment]
      exact (raises_toFragments children).map _
  | .group children => by
      simp only [rawPieces, toFragment]
      exact raises_toFragments children
  | .table rows => by
      simp only [rawPieces, toFragment]
      exact (Raises.mapM Inline.raises_rowFragment rows).map _
  | .code _ _ _ | .rule | .frontmatter _ => by
      simp only [rawPieces, toFragment]
      exact .ok _
  | .html _ => by
      simp only [rawPieces, toFragment]
      rfl

theorem raises_toFragments :
    (blocks : List Block) → Raises (rawPiecesOfAll blocks) (toFragments blocks)
  | [] => by
      simp only [rawPiecesOfAll, toFragments]
      exact .ok _
  | block :: more => by
      simp only [rawPiecesOfAll, toFragments]
      apply (raises_toFragment block).bind
      intro nodes
      exact (raises_toFragments more).bind_ok fun later => nodes ++ later

end

theorem rawPiecesOfAll_eq_nil_iff (blocks : List Block) :
    rawPiecesOfAll blocks = [] ↔ ∀ block ∈ blocks, block.rawPieces = [] := by
  induction blocks with
  | nil => simp [rawPiecesOfAll]
  | cons block more ih => simp [rawPiecesOfAll, ih]

end Block

end Markdown

end UiMarkdown
