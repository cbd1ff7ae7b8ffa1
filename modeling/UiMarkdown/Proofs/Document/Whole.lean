import UiMarkdown.Proofs.Document.Shorthand

/-!
# Expressions that stay whole

The repairs of a fragment can tear an expression in two ways.  An image in a text is
matched without regard to expressions, and one that lies across a seam of the image is
cut there.  And a run that has to be flattened loses the targets of the images in it,
also of those that were made of texts before.  Where neither happens, all expressions
stay whole, and in order.
-/

namespace UiMarkdown

namespace Fragment

open Template

/-- A fragment whose repairs tear no expression. -/
structure Mendable (nodes : List Fragment) : Prop where
  /-- No expression lies across a seam of an image in a text. -/
  images : ∀ value ∈ throughout ownValue nodes, crosses (segments value) = false
  /-- No expression stands in the target of an image in a run that has to be flattened. -/
  runs : ∀ siblings, Level nodes siblings → ∀ run,
    IsRun (mergeImages (normalizeEach siblings)) run → isCut run = true →
      ∀ target ∈ throughout ownTarget run, ¬ HasSpan target

variable {ps : List (List Char)} {nodes siblings run : List Fragment}

/-! ## Runs -/

/-- Flattening a run tears no expression that stands in it outside the targets. -/
theorem standAmong_settle (spans : ∀ p ∈ ps, IsSpan p)
    (targets : run ≠ [] → isCut run = true → ∀ target ∈ throughout ownTarget run, ¬ HasSpan target)
    (stand : StandAmong ps (throughout ownStrings run)) :
    StandAmong ps (throughout ownStrings (settle run)) := by
  cases cut : isCut run with
  | false => rwa [settle_of_not_isCut cut]
  | true =>
      have texts (pieces : List Piece) : throughout ownStrings
          (pieces.map fun piece => .text (String.ofList piece.text)) = pieces.map Piece.text := by
        induction pieces with
        | nil => simp
        | cons piece pieces ih => simp [throughout_cons, ownStrings, children, ih]
      have bare : ∀ target ∈ throughout ownTarget run, ¬ HasSpan target := by
        by_cases empty : run = []
        · simp [empty]
        · exact targets empty cut
      rw [settle_of_isCut cut, texts]
      exact (standAmong_plainTexts spans stand bare).flatten.pieces spans

theorem standAmong_settleRuns {begun : List Fragment} (spans : ∀ p ∈ ps, IsSpan p)
    (mergeable : ∀ node ∈ begun, node.isMergeable = true)
    (targets : ∀ run, IsRun (begun ++ nodes) run → isCut run = true →
      ∀ target ∈ throughout ownTarget run, ¬ HasSpan target)
    (stand : StandAmong ps (throughout ownStrings (begun ++ nodes))) :
    StandAmong ps (throughout ownStrings (settleRuns begun nodes)) := by
  induction nodes generalizing begun ps with
  | nil =>
      rw [settleRuns]
      rw [List.append_nil] at stand targets
      exact standAmong_settle spans
        (fun some cut => targets begun ⟨some, mergeable, [], [], by simp⟩ cut) stand
  | cons node rest ih =>
      rw [settleRuns]
      split
      · rename_i joins
        refine ih spans ?_ (by simpa using targets) (by simpa using stand)
        simpa [or_imp, forall_and, joins] using mergeable
      · rename_i apart
        rw [Bool.not_eq_true] at apart
        have runs (run : List Fragment) : IsRun (begun ++ node :: rest) run ↔
            (begun ≠ [] ∧ run = begun) ∨ IsRun rest run :=
          IsRun.append_cons_iff mergeable apart
        rw [List.append_cons, throughout_append, throughout_append, List.append_assoc] at stand
        obtain ⟨_, _, rfl, inBegun, stand⟩ := stand.split
        obtain ⟨_, _, rfl, inNode, inRest⟩ := stand.split
        rw [List.forall_mem_append, List.forall_mem_append] at spans
        rw [List.append_cons, throughout_append, throughout_append, List.append_assoc]
        have first := standAmong_settle spans.1
          (fun some cut => targets begun ((runs begun).2 (.inl ⟨some, rfl⟩)) cut) inBegun
        refine first.append (inNode.append (ih spans.2.2 (by simp) ?_ inRest))
        exact fun run isRun => targets run ((runs run).2 (.inr isRun))

/-! ## Levels -/

theorem Mendable.inside (mendable : Mendable nodes) {node : Fragment} (mem : node ∈ nodes) :
    Mendable node.children where
  images value among := mendable.images value ((sublist_throughout mem).subset among)
  runs siblings level := mendable.runs siblings (.inside mem level)

theorem Level.sublist_throughout {own : Fragment → List (List Char)} (level : Level nodes siblings) :
    (throughout own siblings).Sublist (throughout own nodes) := by
  induction level with
  | top nodes => exact List.Sublist.refl _
  | inside mem _ ih => exact ih.trans (Fragment.sublist_throughout mem)

theorem mergeImages_append (nodes more : List Fragment) :
    mergeImages (nodes ++ more) = mergeImages nodes ++ mergeImages more := by
  rw [mergeImages, mergeImages, mergeImages, List.flatMap_append]

/-- The expressions inside a node stay whole when it is repaired and made images of. -/
theorem standAmong_mergeImages_node {node : Fragment}
    (images : ∀ value ∈ ownValue node, crosses (segments value) = false)
    (inside : StandAmong ((throughout ownValue node.children).flatMap spanTexts)
      (throughout ownStrings (normalize node.children))) :
    StandAmong ((throughout ownValue [node]).flatMap spanTexts)
      (throughout ownStrings (mergeImages [normalizeNode node])) := by
  rw [throughout_cons, throughout_nil, List.append_nil]
  cases node with
  | text value =>
      have whole := standAmong_mergeImages_text (images value.toList List.mem_cons_self)
      simpa [ownValue, children, normalizeNode] using whole
  | _ =>
      have still {other : Fragment} (markup : other.isText = false) :
          mergeImages [other] = [other] := by
        cases other <;> first | rfl | cases markup
      rw [still (by rw [normalizeNode]; rfl), throughout_cons, children_normalizeNode, throughout_nil,
        List.append_nil]
      exact inside.behind _

theorem standAmong_mergeImages
    (images : ∀ value ∈ throughout ownValue nodes, crosses (segments value) = false)
    (inside : ∀ node ∈ nodes, StandAmong ((throughout ownValue node.children).flatMap spanTexts)
      (throughout ownStrings (normalize node.children))) :
    StandAmong ((throughout ownValue nodes).flatMap spanTexts)
      (throughout ownStrings (mergeImages (normalizeEach nodes))) := by
  induction nodes with
  | nil => simp [normalizeEach, mergeImages, StandAmong]
  | cons node more ih =>
      rw [List.forall_mem_cons] at inside
      rw [throughout_cons, List.forall_mem_append, List.forall_mem_append] at images
      have here := standAmong_mergeImages_node images.1 inside.1
      have later := ih images.2.2 inside.2
      have whole : mergeImages (normalizeEach (node :: more)) =
          mergeImages [normalizeNode node] ++ mergeImages (normalizeEach more) := by
        rw [normalizeEach, ← mergeImages_append, List.singleton_append]
      rw [whole, throughout_append, ← List.singleton_append, throughout_append, List.flatMap_append]
      exact here.append later

/-- The expressions of the texts of a fragment stay whole and in order when it is repaired. -/
theorem standAmong_normalize (mendable : Mendable nodes) :
    StandAmong ((throughout ownValue nodes).flatMap spanTexts)
      (throughout ownStrings (normalize nodes)) := by
  induction nodes using level_induction with
  | level nodes inside =>
      have spans : ∀ p ∈ (throughout ownValue nodes).flatMap spanTexts, IsSpan p :=
        List.forall_mem_flatMap.2 fun value _ p mem => isSpan_of_mem_spanTexts mem
      exact standAmong_settleRuns spans (by simp) (mendable.runs nodes (.top nodes))
        (standAmong_mergeImages mendable.images fun node mem => inside node mem (mendable.inside mem))

/-- When the expressions of a run stand in its texts, each of them stays whole in one string. -/
theorem run_spans_whole (mendable : Mendable nodes) (level : Level nodes siblings)
    (isRun : IsRun siblings run)
    (placed : StandAmong (spanTexts (plainTexts run).flatten) (throughout ownValue run)) :
    StandAmong (spanTexts (plainTexts run).flatten) (throughout ownStrings (normalize nodes)) ∧
      ∀ span ∈ spanTexts (plainTexts run).flatten,
        ∃ string ∈ throughout ownStrings (normalize nodes), span <:+: string := by
  have spans : ∀ p ∈ spanTexts (plainTexts run).flatten, IsSpan p :=
    fun p mem => isSpan_of_mem_spanTexts mem
  have among : (throughout ownValue run).Sublist (throughout ownValue nodes) := by
    obtain ⟨before, after, rfl, -, -⟩ := isRun.maximal
    refine List.Sublist.trans ?_ level.sublist_throughout
    rw [throughout_append, throughout_append]
    exact (List.sublist_append_left _ _).trans (List.sublist_append_right _ _)
  have stand := (standAmong_normalize mendable).mono ((placed.sublist among).sublistForall₂ spans)
  exact ⟨stand, fun span mem => stand.exists_of_mem mem⟩

/-- One expression is the target of an image, and one stands before emphasis that closes none. -/
theorem mendable_image_beside_emphasis :
    Mendable [.text "![a](\x7b\x7bb\x7d\x7d)\x7b\x7bc\x7d\x7d", .emphasis [.text "\x7d\x7d"]] where
  images := by decide +kernel
  runs := by
    intro siblings level run isRun _
    suffices none : throughout ownTarget run = [] by simp [none]
    simp only [Level.cons_iff, Level.nil_iff, children, List.mem_singleton, exists_eq_left,
      List.not_mem_nil, false_and, exists_false, or_false] at level
    rcases level with rfl | rfl | rfl | rfl
    · have merged : mergeImages (normalizeEach
          [.text "![a](\x7b\x7bb\x7d\x7d)\x7b\x7bc\x7d\x7d", .emphasis [.text "\x7d\x7d"]]) =
          .image "\x7b\x7bb\x7d\x7d" none "a" ::
            ([.text "\x7b\x7bc\x7d\x7d", .emphasis [.text "\x7d\x7d"]] ++ []) := by
        decide +kernel
      rw [merged, IsRun.cons_iff rfl, IsRun.append_iff (by decide) (by simp)] at isRun
      rcases isRun with ⟨-, rfl⟩ | none
      · decide +kernel
      · exact absurd none IsRun.not_nil
    · exact absurd isRun IsRun.not_nil
    · obtain rfl := isRun.eq_of_text
      decide +kernel
    · exact absurd isRun IsRun.not_nil

/-- The image becomes a node, and the run behind it is flattened. -/
theorem run_spans_whole_beside_emphasis :
    StandAmong ["\x7b\x7bb\x7d\x7d".toList, "\x7b\x7bc\x7d\x7d".toList] (throughout ownStrings
      (normalize [.text "![a](\x7b\x7bb\x7d\x7d)\x7b\x7bc\x7d\x7d", .emphasis [.text "\x7d\x7d"]])) := by
  have isRun : IsRun [.text "![a](\x7b\x7bb\x7d\x7d)\x7b\x7bc\x7d\x7d", .emphasis [.text "\x7d\x7d"]]
      [.text "![a](\x7b\x7bb\x7d\x7d)\x7b\x7bc\x7d\x7d", .emphasis [.text "\x7d\x7d"]] :=
    ⟨by simp, by decide, [], [], by simp⟩
  have values : throughout ownValue
      [.text "![a](\x7b\x7bb\x7d\x7d)\x7b\x7bc\x7d\x7d", .emphasis [.text "\x7d\x7d"]] =
        ["![a](\x7b\x7bb\x7d\x7d)\x7b\x7bc\x7d\x7d".toList] ++ ["\x7d\x7d".toList] := by
    decide +kernel
  have spans : spanTexts (plainTexts
      [.text "![a](\x7b\x7bb\x7d\x7d)\x7b\x7bc\x7d\x7d", .emphasis [.text "\x7d\x7d"]]).flatten =
        spanTexts "![a](\x7b\x7bb\x7d\x7d)\x7b\x7bc\x7d\x7d".toList ++ spanTexts "\x7d\x7d".toList := by
    decide +kernel
  have whole := run_spans_whole mendable_image_beside_emphasis (.top _) isRun (by
    rw [values, spans]
    exact (StandAmong.singleton (standIn_spanTexts _)).append (.singleton (standIn_spanTexts _)))
  rw [spans] at whole
  have found : spanTexts "![a](\x7b\x7bb\x7d\x7d)\x7b\x7bc\x7d\x7d".toList ++
      spanTexts "\x7d\x7d".toList = ["\x7b\x7bb\x7d\x7d".toList, "\x7b\x7bc\x7d\x7d".toList] := by
    decide +kernel
  exact found ▸ whole.1

/-- An image in a text is matched inside an expression. -/
theorem not_run_spans_whole_of_image :
    ¬ ∀ nodes : List Fragment,
      (∀ siblings, Level nodes siblings → ∀ run, IsRun siblings run →
        StandAmong (spanTexts (plainTexts run).flatten) (throughout ownValue run)) →
      ∀ siblings, Level nodes siblings → ∀ run, IsRun siblings run →
        ∀ span ∈ spanTexts (plainTexts run).flatten,
          ∃ string ∈ throughout ownStrings (normalize nodes), span <:+: string := by
  intro whole
  have alone (value : String) : IsRun [.text value] [.text value] :=
    ⟨by simp, by simp [isMergeable], [], [], by simp⟩
  have torn := whole [.text "\x7b\x7b'![a](b'\x7d\x7d\x7b\x7bc\x7d\x7d)"] ?_ _ (.top _) _ (alone _)
    "\x7b\x7b'![a](b'\x7d\x7d".toList (by decide +kernel)
  · revert torn
    decide +kernel
  · intro siblings level run isRun
    simp only [Level.cons_iff, Level.nil_iff, children, List.not_mem_nil, false_and, exists_false,
      or_false] at level
    rcases level with rfl | rfl
    · obtain rfl := isRun.eq_of_text
      simpa [plainTexts, plainText, throughout_cons, ownValue, children] using
        StandAmong.singleton (standIn_spanTexts _)
    · exact absurd isRun IsRun.not_nil

end Fragment

end UiMarkdown
