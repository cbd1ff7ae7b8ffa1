import UiMarkdown.Proofs.Document.Imageless
import UiMarkdown.Proofs.Document.Strings

/-!
# Repairing again

A repaired fragment stays as it is when it is repaired once more.  On one level no text
is left with an image in it and every run is settled, so neither repair finds anything;
and what the repair of a level looks at inside its nodes has been repaired before, so
it is there unchanged the second time.
-/

namespace UiMarkdown

namespace Fragment

/-! ## One level -/

/-- A settled run is not flattened. -/
theorem Settled.settle_eq {run : List Fragment} (settled : Settled run) : settle run = run := by
  refine settle_of_not_isCut ?_
  rw [isCut, Bool.or_eq_false_iff, crosses_eq_false_iff, List.any_eq_false]
  constructor
  · intro left right whole
    rw [plainTexts_eq_map] at whole
    obtain ⟨front, back, rfl, rfl, rfl⟩ := List.map_eq_append_iff.1 whole
    rw [← plainTexts_eq_map, ← plainTexts_eq_map]
    exact settled.apart front back rfl
  · intro node mem
    rw [Bool.not_eq_true]
    cases text : node.isText with
    | true => cases node <;> first | rfl | cases text
    | false => exact (isDangling_eq_false_iff text).2 (settled.paired node mem text)

theorem settle_eq_of_ne_nil {run : List Fragment} (settled : run ≠ [] → Settled run) :
    settle run = run := by
  rcases eq_or_ne run [] with rfl | some
  · exact settle_nil
  · exact (settled some).settle_eq

/-- Nodes whose runs are settled stay as they are. -/
theorem settleRuns_of_settled {begun nodes : List Fragment}
    (mergeable : ∀ node ∈ begun, node.isMergeable = true)
    (settled : ∀ run, IsRun (begun ++ nodes) run → Settled run) :
    settleRuns begun nodes = begun ++ nodes := by
  induction nodes generalizing begun with
  | nil =>
      rw [List.append_nil] at settled ⊢
      rw [settleRuns]
      exact settle_eq_of_ne_nil fun some => settled begun ⟨some, mergeable, [], [], by simp⟩
  | cons node rest ih =>
      rw [settleRuns]
      split
      · rename_i joins
        rw [List.append_cons begun node rest] at settled ⊢
        refine ih ?_ settled
        rw [List.forall_mem_append, List.forall_mem_singleton]
        exact ⟨mergeable, joins⟩
      · rename_i apart
        rw [Bool.not_eq_true] at apart
        have isRun (run : List Fragment) :
            (begun ≠ [] ∧ run = begun) ∨ IsRun rest run → IsRun (begun ++ node :: rest) run :=
          (IsRun.append_cons_iff mergeable apart).2
        have here : settle begun = begun :=
          settle_eq_of_ne_nil fun some => settled begun (isRun begun (.inl ⟨some, rfl⟩))
        have later : settleRuns [] rest = [] ++ rest :=
          ih (List.forall_mem_nil _) fun run later => settled run (isRun run (.inr later))
        rw [here, later, List.nil_append]

/-- Repairing one level again changes nothing. -/
theorem repair_repair (nodes : List Fragment) : repair (repair nodes) = repair nodes := by
  have plain : ∀ node ∈ repair nodes, node.Imageless := by
    refine forall_mem_settleRuns ?_ (List.forall_mem_nil _) fun _ => imageless_of_mem_mergeImages
    intro s piece mem
    rw [Imageless, String.toList_ofList]
    exact hasImage_eq_false_of_mem_pieces mem
  have settled : ∀ run, IsRun ([] ++ repair nodes) run → Settled run :=
    fun _ isRun => settled_of_isRun_repair isRun
  rw [repair, mergeImages_of_imageless plain,
    settleRuns_of_settled (List.forall_mem_nil _) settled, List.nil_append]

/-! ## All levels -/

theorem normalizeNode_eq_self {node : Fragment} (inside : normalize node.children = node.children) :
    normalizeNode node = node := by
  cases node with
  | code | thematicBreak | text | inlineCode | lineBreak | image => rw [normalizeNode]
  | _ =>
      rw [children, normalize] at inside
      rw [normalizeNode, inside]

/-- Repairing a fragment again changes nothing. -/
theorem normalize_normalize (nodes : List Fragment) :
    normalize (normalize nodes) = normalize nodes := by
  induction nodes using level_induction with
  | level nodes ih =>
      have inside : normalizeEach (normalize nodes) = normalize nodes := by
        rw [normalizeEach_eq_map]
        refine (List.map_congr_left fun node mem => ?_).trans (List.map_id _)
        refine normalizeNode_eq_self ?_
        rcases mem_repair mem with mem | leaf
        · rw [normalizeEach_eq_map] at mem
          obtain ⟨source, among, rfl⟩ := List.mem_map.1 mem
          rw [children_normalizeNode, ih source among]
        · rw [leaf]
          exact settle_nil
      rw [normalize, inside, normalize, repair_repair]

end Fragment

end UiMarkdown
