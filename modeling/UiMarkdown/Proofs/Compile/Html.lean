import UiMarkdown.Proofs.Compile.Walk

/-!
# Bodies with raw Html

A body is refused for raw Html and for nothing else, and the error is that of the
first raw piece in document order.  A run of blocks always ends before a container
opens or closes, so when it is looked at, nothing before it is still to be looked at.
-/

namespace UiMarkdown

namespace Markdown.Block

theorem rawPiecesOfAll_eq_flatMap (blocks : List Block) :
    rawPiecesOfAll blocks = blocks.flatMap rawPieces := by
  induction blocks with
  | nil => rw [rawPiecesOfAll, List.flatMap_nil]
  | cons block more ih => rw [rawPiecesOfAll, ih, List.flatMap_cons]

end Markdown.Block

namespace Body

/-- A result that is a value if there are no raw pieces, and else the error of the first one. -/
def Refuses {α : Type} (body : Body) (pieces : List (List Char))
    (result : Except CompileError α) : Prop :=
  match pieces with
  | [] => ∃ value, result = .ok value
  | piece :: _ => result = .error (.ofHtml (body.mask.restore piece) body.document)

namespace Refuses

variable {α β : Type} {body : Body} {pieces more : List (List Char)}
  {result : Except CompileError α}

theorem ok (value : α) : body.Refuses [] (.ok value : Except CompileError α) :=
  ⟨value, rfl⟩

theorem bind {next : α → Except CompileError β} (first : body.Refuses pieces result)
    (second : ∀ value, body.Refuses more (next value)) :
    body.Refuses (pieces ++ more) (result >>= next) := by
  cases pieces with
  | nil =>
      obtain ⟨value, rfl⟩ := first
      exact second value
  | cons piece rest =>
      rw [Refuses] at first
      rw [first]
      rfl

theorem map (first : body.Refuses pieces result) (f : α → β) :
    body.Refuses pieces (result.map f) := by
  have both := first.bind fun value => ok (f value)
  rw [List.append_nil] at both
  cases result <;> exact both

/-- Refusal is the only cause of an error, and the error is that of the first raw piece. -/
theorem eq_error_iff (refuses : body.Refuses pieces result) {error : CompileError} :
    result = .error error ↔ ∃ first ∈ pieces.head?,
      error = .ofHtml (body.mask.restore first) body.document := by
  cases pieces with
  | nil =>
      obtain ⟨value, rfl⟩ := refuses
      constructor
      · intro failed
        cases failed
      · rintro ⟨first, mem, -⟩
        cases mem
  | cons piece rest =>
      rw [Refuses] at refuses
      rw [refuses]
      constructor
      · intro failed
        exact ⟨piece, rfl, (Except.error.inj failed).symm⟩
      · rintro ⟨first, mem, rfl⟩
        cases mem
        rfl

end Refuses

def rawPiecesOf (run : List Markdown.Placed) : List (List Char) :=
  run.flatMap fun placed => placed.block.rawPieces

theorem refuses_passage? (body : Body) (run : List Markdown.Placed) :
    body.Refuses (rawPiecesOf run) (body.passage? run) := by
  have converted := Markdown.Block.raises_toFragments (run.map (·.block))
  rw [Markdown.Block.rawPiecesOfAll_eq_flatMap, List.flatMap_map] at converted
  rw [passage?]
  cases pieces : rawPiecesOf run with
  | nil =>
      rw [rawPiecesOf] at pieces
      rw [pieces] at converted
      obtain ⟨nodes, converted⟩ := converted
      rw [converted]
      dsimp only
      split
      · exact .ok none
      · exact .ok _
  | cons piece rest =>
      rw [rawPiecesOf] at pieces
      rw [pieces, Markdown.Raises] at converted
      rw [converted]
      rfl

theorem refuses_flush (body : Body) (stack : Stack) (run : List Markdown.Placed) :
    body.Refuses (rawPiecesOf run) (body.flush stack run) := by
  cases run with
  | nil => exact .ok stack
  | cons block run => exact (body.refuses_passage? (block :: run)).map _

/--
Building refuses the first raw piece of what it has not looked at yet: the run
that has begun, and the parts that follow.
-/
theorem refuses_build (body : Body) (parts : List Part) (stack : Stack)
    (run : List Markdown.Placed) :
    body.Refuses (rawPiecesOf run.reverse ++ parts.flatMap Part.rawPieces)
      (body.build stack run parts) := by
  induction parts generalizing stack run with
  | nil =>
      rw [build, List.flatMap_nil, List.append_nil]
      exact body.refuses_flush stack run.reverse
  | cons part more ih =>
      rw [List.flatMap_cons]
      cases part with
      | plain block =>
          have grown := ih stack (block :: run)
          rw [rawPiecesOf, List.reverse_cons, List.flatMap_append, List.flatMap_singleton,
            List.append_assoc] at grown
          rw [build]
          exact grown
      | fence directive source =>
          rw [Part.rawPieces, List.nil_append]
          cases stray : (Part.fence directive source).isStray stack.containers.length with
          | true =>
              rw [build_stray more stray]
              exact ih stack run
          | false =>
              rw [build_fence more stray]
              apply (body.refuses_flush stack run.reverse).bind
              intro flushed
              exact ih (body.applyFence flushed directive source) []

/-- The tree of blocks is refused for the first raw piece in them. -/
theorem refuses_treeOf (body : Body) (blocks : List Markdown.Placed) :
    body.Refuses (rawPiecesOf blocks) (body.treeOf blocks) := by
  have built := body.refuses_build (blocks.map body.partOf) {} []
  have pieces : (blocks.map body.partOf).flatMap Part.rawPieces = rawPiecesOf blocks := by
    rw [List.flatMap_map, rawPiecesOf]
    congr 1
    funext placed
    exact body.rawPieces_partOf placed
  rw [pieces, List.reverse_nil] at built
  exact built.map Stack.finish

end Body

namespace CompileError

/-- The error of raw markup shows the markup without the white space around it. -/
theorem exists_ofHtml_eq (markup document : List Char) :
    ∃ span, ofHtml markup document = .html (String.ofList (Text.trim markup)) span :=
  ⟨_, rfl⟩

end CompileError

namespace Body

/--
Blocks have no tree exactly when some block other than a fence is raw Html or has
it inside.  The markup in the error is then the first raw piece in document order,
at whatever depth it stands and whatever containers are open around it, with the
expressions put back and without white space around it.
-/
theorem refused_iff_raw_html (body : Body) (blocks : List Markdown.Placed) :
    ((∃ error, body.treeOf blocks = .error error) ↔
      ∃ placed ∈ blocks, (∀ info literal, placed.block ≠ .code true info literal) ∧
        placed.block.rawPieces ≠ []) ∧
    ∀ error, body.treeOf blocks = .error error →
      ∃ first span, (blocks.flatMap fun placed => placed.block.rawPieces).head? = some first ∧
        error = .html (String.ofList (Text.trim (body.mask.restore first))) span := by
  have refuses := body.refuses_treeOf blocks
  refine ⟨⟨?_, ?_⟩, ?_⟩
  · rintro ⟨error, failed⟩
    obtain ⟨first, head, -⟩ := refuses.eq_error_iff.1 failed
    obtain ⟨placed, mem, inside⟩ := List.mem_flatMap.1 (List.mem_of_mem_head? head)
    refine ⟨placed, mem, ?_, List.ne_nil_of_mem inside⟩
    intro info literal isFence
    rw [isFence, Markdown.Block.rawPieces] at inside
    cases inside
  · rintro ⟨placed, mem, -, raw⟩
    cases done : body.treeOf blocks with
    | error error => exact ⟨error, rfl⟩
    | ok tree => exact absurd (exists_treeOf_iff.1 ⟨tree, done⟩ placed mem) raw
  · intro error failed
    obtain ⟨first, head, rfl⟩ := refuses.eq_error_iff.1 failed
    obtain ⟨span, shown⟩ := CompileError.exists_ofHtml_eq (body.mask.restore first) body.document
    exact ⟨first, span, head, shown⟩

/-- Two containers stay open around a table with an image whose text is raw Html; more follows. -/
theorem refused_inside_open_containers :
    let fence (info : String) : Markdown.Placed := ⟨.code true info.toList "<p>".toList, 1, 1⟩
    let image : Markdown.Inline := .image ⟨[], []⟩ [.html " <b HNTPL0Q>\n".toList]
    let blocks : List Markdown.Placed := [fence "hstack.start", fence "vstack.start",
      ⟨.table [[[.text ['a']], [.strong [image]]]], 2, 3⟩, fence "hstack.end",
      ⟨.html "<i>".toList, 4, 4⟩]
    let body : Body :=
      { lines := [], mask := ⟨"HNTPL".toList, ["\x7b\x7b x \x7d\x7d".toList]⟩, document := [] }
    ∃ error, body.treeOf blocks = .error error ∧
      ∃ span, error = .html "<b \x7b\x7b x \x7d\x7d>" span := by
  intro fence image blocks body
  have refused := body.refused_iff_raw_html blocks
  have raw : ∃ placed ∈ blocks, (∀ info literal, placed.block ≠ .code true info literal) ∧
      placed.block.rawPieces ≠ [] := by
    refine ⟨⟨.html "<i>".toList, 4, 4⟩, by simp [blocks], ?_, ?_⟩
    · intro info literal isFence
      cases isFence
    · rw [Markdown.Block.rawPieces]
      exact List.cons_ne_nil _ _
  obtain ⟨error, failed⟩ := refused.1.2 raw
  obtain ⟨first, span, head, rfl⟩ := refused.2 error failed
  have isFirst : (blocks.flatMap fun placed => placed.block.rawPieces).head? =
      some " <b HNTPL0Q>\n".toList := by
    decide +kernel
  obtain rfl := Option.some.inj (isFirst.symm.trans head)
  exact ⟨_, failed, span, congrArg (CompileError.html · span) (by decide +kernel)⟩

end Body

end UiMarkdown
