import UiMarkdown.Proofs.Markdown.Bare

/-!
# The code in a text

The bodies of the code blocks of a text, at any depth and in their order, are
those of its drafts, and neither lines nor marks for blank lines play a part in
them.
-/

namespace UiMarkdown

namespace Markdown

/-! ## Blocks -/

namespace Block

mutual

def codes : Block → List (List Char)
  | .code _ _ literal => [literal]
  | .quote children | .list _ _ children | .item _ children | .group children =>
      codesAll children
  | _ => []

def codesAll : List Block → List (List Char)
  | [] => []
  | block :: more => codes block ++ codesAll more

end

theorem codesAll_append (blocks more : List Block) :
    codesAll (blocks ++ more) = codesAll blocks ++ codesAll more := by
  induction blocks with
  | nil => rfl
  | cons block blocks ih => rw [List.cons_append, codesAll, codesAll, ih, List.append_assoc]

/-- A paragraph has no code, whether or not it starts with the mark of a task. -/
theorem codes_itemOf (tasks : Bool) (children : List Block) :
    (itemOf tasks children).codes = codesAll children := by
  unfold itemOf
  split
  · split
    · simp only [codes, codesAll]
    · rw [codes]
  · rw [codes]

end Block

def codes (blocks : List Placed) : List (List Char) :=
  Block.codesAll (blocks.map Placed.block)

/-! ## Drafts -/

namespace Draft

mutual

def codes : Draft → List (List Char)
  | block shape _ _ _ drafts =>
      match shape with
      | .code _ _ literal => [literal]
      | .quote | .list _ _ _ | .item => codesAll drafts
      | _ => []

def codesAll : List Draft → List (List Char)
  | [] => []
  | draft :: more => codesAll more ++ codes draft

end

mutual

theorem codes_bare : ∀ draft : Draft, draft.bare.codes = draft.codes
  | block shape _ _ _ drafts => by
      rw [bare]
      cases shape <;> simp only [Shape.bare, codes, codesAll_bareAll drafts]

theorem codesAll_bareAll : ∀ drafts : List Draft, codesAll (bareAll drafts) = codesAll drafts
  | [] => rfl
  | draft :: more => by rw [bareAll, codesAll, codesAll, codes_bare draft, codesAll_bareAll more]

end

mutual

theorem codes_toBlock (tasks : Bool) (setting : Setting) :
    ∀ draft : Draft, (toBlock tasks setting draft).codes = draft.codes
  | block shape _ _ _ drafts => by
      have inside := codesAll_toBlocks tasks setting drafts
      cases shape <;> simp only [toBlock, codes, Block.codes, Block.codes_itemOf, inside]

theorem codesAll_toBlocks (tasks : Bool) (setting : Setting) :
    ∀ drafts : List Draft, Block.codesAll (toBlocks tasks setting drafts).reverse = codesAll drafts
  | [] => rfl
  | draft :: more => by
      rw [toBlocks, List.reverse_cons, Block.codesAll_append, Block.codesAll, Block.codesAll,
        List.append_nil, codesAll, codes_toBlock tasks setting draft,
        codesAll_toBlocks tasks setting more]

end

end Draft

/-- The code of a text is that of its drafts. -/
theorem codes_parse (extensions : Extensions) (s : List Char) :
    codes (parse extensions s) = Draft.codesAll (readDrafts extensions.tables s).1 := by
  rw [parse]
  generalize readDrafts extensions.tables s = read
  obtain ⟨drafts, definitions⟩ := read
  dsimp only
  rw [← Draft.codesAll_toBlocks extensions.tasks { strokes := extensions.strokes, definitions },
    codes, List.map_reverse, List.map_map]
  congr 2
  induction drafts with
  | nil => rfl
  | cons draft more ih =>
      rw [List.map_cons, Draft.toBlocks, ih]
      cases draft
      rfl

/-! ## Texts that are read alike -/

def readSoFar (tables : Bool) (s : List Char) : Progress :=
  (Progress.readLines tables ⟨[{ shape := .document, first := 1 }], []⟩ 1 (textLines s)).1

/-- The bodies of the code blocks that are left after all open blocks are closed. -/
def Progress.codes (progress : Progress) : List (List Char) :=
  match progress.chain with
  | [] => []
  | document :: inner =>
      Draft.codesAll (document.push? (closeChain progress.definitions 0 inner).1).inside

theorem Progress.codes_bare {document : OpenBlock} {inner : List OpenBlock}
    (definitions : Definitions) (last : Nat) :
    codes (Progress.bare ⟨document :: inner, definitions⟩) =
      Draft.codesAll (document.push? (closeChain definitions last inner).1).inside := by
  have closed := bare_closeChain definitions last inner
  rw [← Draft.codesAll_bareAll, bare, List.map_cons, codes]
  dsimp only
  rw [← closed]
  exact congrArg (fun block => Draft.codesAll (OpenBlock.inside block))
    (OpenBlock.bare_push? document _).symm

/-- Texts that leave chains that are the same when bare have the same code. -/
theorem codes_parse_congr (extensions : Extensions) {s t : List Char}
    (same : (readSoFar extensions.tables s).bare = (readSoFar extensions.tables t).bare) :
    codes (parse extensions s) = codes (parse extensions t) := by
  have read (s : List Char) : codes (parse extensions s) =
      (readSoFar extensions.tables s).bare.codes := by
    rw [codes_parse, readDrafts, readSoFar]
    dsimp only
    generalize Progress.readLines extensions.tables ⟨[{ shape := .document, first := 1 }], []⟩ 1
      (textLines s) = result
    obtain ⟨⟨chain, definitions⟩, last⟩ := result
    cases chain with
    | nil => rfl
    | cons document inner => exact (Progress.codes_bare definitions last).symm
  rw [read, read, same]

end Markdown

end UiMarkdown
