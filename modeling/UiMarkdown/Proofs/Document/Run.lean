import UiMarkdown.Proofs.Compile.Fragment
import UiMarkdown.Proofs.Template.Seam

/-!
# Runs of inlines

Texts and nodes with emphasis that stand side by side are a run.  A run is settled when
no expression lies across the end of one of its nodes, and no node with emphasis holds
one end of an expression but not the other.  Repairing a list of nodes settles its
runs one by one, and repairing a fragment from the innermost level on settles the
runs on all levels.
-/

namespace UiMarkdown

namespace Fragment

/-- The nodes of a fragment, or the nodes inside one of its nodes on any level. -/
inductive Level : List Fragment → List Fragment → Prop where
  | top (nodes : List Fragment) : Level nodes nodes
  | inside {nodes siblings : List Fragment} {node : Fragment} (mem : node ∈ nodes)
      (level : Level node.children siblings) : Level nodes siblings

/-- A run of nodes that may be flattened, as long as it can be among its siblings. -/
structure IsRun (siblings run : List Fragment) : Prop where
  nonempty : run ≠ []
  mergeable : ∀ node ∈ run, node.isMergeable = true
  maximal : ∃ before after, siblings = before ++ (run ++ after) ∧
    (∀ node ∈ before.getLast?, node.isMergeable = false) ∧
    ∀ node ∈ after.head?, node.isMergeable = false

def isText : Fragment → Bool
  | .text _ => true
  | _ => false

/-- A run in which no expression is cut. -/
structure Settled (run : List Fragment) : Prop where
  /-- No expression lies across the place between two nodes. -/
  apart : ∀ left right, run = left ++ right →
    Template.Apart (plainTexts left).flatten (plainTexts right).flatten
  /-- A node with emphasis has both ends of expressions or neither. -/
  paired : ∀ node ∈ run, node.isText = false →
    (Template.opening <:+: node.plainText ↔ Template.closing <:+: node.plainText)

def Normal (nodes : List Fragment) : Prop :=
  ∀ siblings, Level nodes siblings → ∀ run, IsRun siblings run → Settled run

theorem Level.iff {nodes siblings : List Fragment} :
    Level nodes siblings ↔ siblings = nodes ∨ ∃ node ∈ nodes, Level node.children siblings := by
  constructor
  · rintro (_ | ⟨mem, level⟩)
    · exact .inl rfl
    · exact .inr ⟨_, mem, level⟩
  · rintro (rfl | ⟨node, mem, level⟩)
    · exact .top siblings
    · exact .inside mem level

@[simp] theorem Level.nil_iff {siblings : List Fragment} : Level [] siblings ↔ siblings = [] := by
  rw [Level.iff]
  simp

@[simp] theorem Level.cons_iff {node : Fragment} {more siblings : List Fragment} :
    Level (node :: more) siblings ↔ siblings = node :: more ∨ Level node.children siblings ∨
      ∃ other ∈ more, Level other.children siblings := by
  rw [Level.iff]
  simp

/-! ## Runs among siblings -/

namespace IsRun

variable {begun tail run : List Fragment} {node : Fragment}

theorem not_nil : ¬ IsRun [] run := by
  rintro ⟨nonempty, -, before, after, whole, -, -⟩
  simp_all

/-- Nothing begins with a run that does not begin in it. -/
theorem cons_iff (apart : node.isMergeable = false) :
    IsRun (node :: tail) run ↔ IsRun tail run := by
  constructor
  · rintro ⟨nonempty, mergeable, before, after, whole, last, first⟩
    cases before with
    | nil =>
        obtain ⟨head, rest, rfl⟩ := List.exists_cons_of_ne_nil nonempty
        obtain ⟨rfl, -⟩ := List.cons.inj whole
        simp [apart] at mergeable
    | cons other before =>
        obtain ⟨rfl, rfl⟩ := List.cons.inj whole
        refine ⟨nonempty, mergeable, before, after, rfl, ?_, first⟩
        cases before with
        | nil => simp
        | cons next before => simpa using last
  · rintro ⟨nonempty, mergeable, before, after, rfl, last, first⟩
    refine ⟨nonempty, mergeable, node :: before, after, rfl, ?_, first⟩
    cases before with
    | nil => simpa using apart
    | cons next before => simpa using last

/-- What can be flattened from the start on is the first run. -/
theorem append_iff (mergeable : ∀ node ∈ begun, node.isMergeable = true)
    (apart : ∀ node ∈ tail.head?, node.isMergeable = false) :
    IsRun (begun ++ tail) run ↔ (begun ≠ [] ∧ run = begun) ∨ IsRun tail run := by
  constructor
  · rintro ⟨nonempty, mergeable', before, after, whole, last, first⟩
    rcases List.append_eq_append_iff.1 whole with ⟨m, rfl, rest⟩ | ⟨m, rfl, rest⟩
    · refine .inr ⟨nonempty, mergeable', m, after, rest, ?_, first⟩
      cases m with
      | nil => simp
      | cons next m => simpa using last
    · -- nothing stands before the run, since the node there could be flattened with it
      have start : before = [] := by
        by_contra some
        have isLast := List.getLast?_eq_some_getLast some
        have there := mergeable _ (List.mem_append_left m (List.getLast_mem some))
        simp [last _ isLast] at there
      subst start
      rw [List.nil_append] at mergeable ⊢
      rcases List.append_eq_append_iff.1 rest with ⟨k, rfl, rfl⟩ | ⟨k, rfl, rfl⟩
      · cases k with
        | nil => exact .inl ⟨by simpa using nonempty, by simp⟩
        | cons next k =>
            have here := mergeable next (by simp)
            simp [first next rfl] at here
      · cases k with
        | nil => exact .inl ⟨by simpa using nonempty, by simp⟩
        | cons next k =>
            have here := mergeable' next (by simp)
            simp [apart next rfl] at here
  · rintro (⟨nonempty, rfl⟩ | ⟨nonempty, mergeable', before, after, rfl, last, first⟩)
    · exact ⟨nonempty, mergeable, [], tail, rfl, by simp, apart⟩
    · refine ⟨nonempty, mergeable', begun ++ before, after, by simp, ?_, first⟩
      cases before with
      | nil =>
          obtain ⟨head, rest, rfl⟩ := List.exists_cons_of_ne_nil nonempty
          simp at apart mergeable'
          simp [apart] at mergeable'
      | cons next before => simpa using last

/-- A node that cannot be flattened stands between the first run and those behind it. -/
theorem append_cons_iff (mergeable : ∀ node ∈ begun, node.isMergeable = true)
    (apart : node.isMergeable = false) :
    IsRun (begun ++ node :: tail) run ↔ (begun ≠ [] ∧ run = begun) ∨ IsRun tail run := by
  rw [append_iff mergeable (by simpa using apart), cons_iff apart]

theorem eq_of_text {value : String} (isRun : IsRun [.text value] run) : run = [.text value] := by
  rw [← List.append_nil [text value], append_iff (by simp [isMergeable]) (by simp)] at isRun
  rcases isRun with ⟨-, same⟩ | none
  · exact same
  · exact absurd none not_nil

end IsRun

/-! ## Where nodes meet -/

theorem plainTexts_eq_map (nodes : List Fragment) : plainTexts nodes = nodes.map plainText := by
  induction nodes with
  | nil => rw [plainTexts, List.map_nil]
  | cons node more ih => rw [plainTexts, ih, List.map_cons]

theorem mem_boundaries_iff {n b : Nat} {texts : List (List Char)} :
    b ∈ boundaries n texts ↔ ∃ left right, texts = left ++ right ∧ left ≠ [] ∧ right ≠ [] ∧
      b = n + Text.byteLength left.flatten := by
  induction texts generalizing n with
  | nil =>
      simp only [boundaries, List.not_mem_nil, false_iff]
      rintro ⟨left, right, whole, nonempty, -⟩
      exact nonempty (List.append_eq_nil_iff.1 whole.symm).1
  | cons s more ih =>
      cases more with
      | nil =>
          simp only [boundaries, List.not_mem_nil, false_iff]
          rintro ⟨left, right, whole, nonempty, nonempty', -⟩
          rcases List.append_eq_cons_iff.1 whole.symm with ⟨rfl, -⟩ | ⟨left', -, rest⟩
          · exact nonempty rfl
          · exact nonempty' (List.append_eq_nil_iff.1 rest.symm).2
      | cons t more =>
          rw [boundaries.eq_3 _ _ _ (by simp), List.mem_cons, ih]
          constructor
          · rintro (rfl | ⟨left, right, whole, -, nonempty, rfl⟩)
            · exact ⟨[s], t :: more, rfl, by simp, by simp, by simp⟩
            · exact ⟨s :: left, right, by rw [whole]; rfl, by simp, nonempty, by simp [Nat.add_assoc]⟩
          · rintro ⟨left, right, whole, nonempty, nonempty', rfl⟩
            obtain ⟨first, left, rfl⟩ := List.exists_cons_of_ne_nil nonempty
            obtain ⟨rfl, rest⟩ := List.cons.inj whole
            cases left with
            | nil => simp
            | cons u left =>
                exact .inr ⟨u :: left, right, rest, by simp, nonempty', by simp [Nat.add_assoc]⟩

/-- No expression is found to cross when the texts on both sides of every place are apart. -/
theorem crosses_eq_false_iff {texts : List (List Char)} :
    crosses texts = false ↔
      ∀ left right, texts = left ++ right → Template.Apart left.flatten right.flatten := by
  have unfolded : crosses texts = false ↔ ∀ range ∈ Template.ranges texts.flatten,
      ∀ b ∈ boundaries 0 texts, ¬ (range.1 < b ∧ b < range.2) := by
    simp [crosses]
  rw [unfolded]
  constructor
  · rintro none left right rfl
    by_cases start : left = []
    · rw [start]
      exact .nil_left _
    by_cases stop : right = []
    · rw [stop]
      exact .nil_right _
    intro range mem
    rw [← List.flatten_append] at mem
    exact none range mem _ (mem_boundaries_iff.2 ⟨left, right, rfl, start, stop, by simp⟩)
  · intro apart range mem b place
    obtain ⟨left, right, rfl, -, -, rfl⟩ := mem_boundaries_iff.1 place
    rw [List.flatten_append] at mem
    simpa using apart left right rfl range mem

theorem isDangling_eq_false_iff {node : Fragment} (markup : node.isText = false) :
    node.isDangling = false ↔
      (Template.opening <:+: node.plainText ↔ Template.closing <:+: node.plainText) := by
  have unfolded : node.isDangling =
      (Text.occurs Template.opening node.plainText != Text.occurs Template.closing node.plainText) := by
    cases node <;> first | rfl | cases markup
  rw [unfolded, bne_eq_false_iff_eq, Bool.eq_iff_iff, Text.occurs_iff, Text.occurs_iff]

def isCut (run : List Fragment) : Bool :=
  crosses (plainTexts run) || run.any isDangling

theorem settle_of_isCut {run : List Fragment} (cut : isCut run = true) :
    settle run = (Template.pieces (plainTexts run).flatten).map
      fun piece => .text (String.ofList piece.text) :=
  if_pos cut

theorem settle_of_not_isCut {run : List Fragment} (whole : isCut run = false) :
    settle run = run :=
  if_neg (by simpa [isCut] using whole)

/-- The text of a run stays when the run is flattened. -/
theorem plainTexts_settle_of_isCut {run : List Fragment} (cut : isCut run = true) :
    plainTexts (settle run) =
      (Template.pieces (plainTexts run).flatten).map Template.Piece.text := by
  rw [settle_of_isCut cut, plainTexts_eq_map, List.map_map]
  exact List.map_congr_left fun piece _ => by simp [plainText]

/-! ## One level -/

/-- A run is settled by flattening it, or is so already. -/
theorem settled_settle (run : List Fragment) : Settled (settle run) := by
  cases cut : isCut run with
  | false =>
      rw [settle_of_not_isCut cut]
      rw [isCut, Bool.or_eq_false_iff, crosses_eq_false_iff, List.any_eq_false] at cut
      constructor
      · rintro left right rfl
        exact cut.1 (plainTexts left) (plainTexts right) (by simp [plainTexts_eq_map])
      · intro node mem markup
        exact (isDangling_eq_false_iff markup).1 (by simpa using cut.2 node mem)
  | true =>
      have texts := settle_of_isCut cut
      constructor
      · intro left right whole
        have split := plainTexts_settle_of_isCut cut
        rw [whole, plainTexts_eq_map, List.map_append, ← plainTexts_eq_map,
          ← plainTexts_eq_map] at split
        obtain ⟨front, back, pieces, front', back'⟩ := List.map_eq_append_iff.1 split.symm
        rw [← front', ← back', ← List.flatMap_def, ← List.flatMap_def]
        exact Template.Apart.of_pieces pieces
      · intro node mem markup
        rw [settle_of_isCut cut] at mem
        obtain ⟨piece, -, rfl⟩ := List.mem_map.1 mem
        cases markup

/-- What holds of the nodes of a run and of all pieces of texts holds when the run is settled. -/
theorem forall_mem_settle {p : Fragment → Prop} {run : List Fragment}
    (pieces : ∀ s, ∀ piece ∈ Template.pieces s, p (.text (String.ofList piece.text)))
    (holds : ∀ node ∈ run, p node) : ∀ node ∈ settle run, p node := by
  cases cut : isCut run with
  | false => rwa [settle_of_not_isCut cut]
  | true =>
      rw [settle_of_isCut cut, List.forall_mem_map]
      exact pieces _

theorem mem_settle {run : List Fragment} {node : Fragment} (mem : node ∈ settle run) :
    node ∈ run ∨ node.isText = true :=
  forall_mem_settle (p := fun node => node ∈ run ∨ node.isText = true) (fun _ _ _ => .inr rfl)
    (fun _ mem => .inl mem) node mem

theorem isMergeable_of_isText {node : Fragment} (text : node.isText = true) :
    node.isMergeable = true := by
  cases node <;> first | rfl | cases text

theorem isMergeable_of_mem_settle {run : List Fragment}
    (mergeable : ∀ node ∈ run, node.isMergeable = true) :
    ∀ node ∈ settle run, node.isMergeable = true := by
  intro node mem
  rcases mem_settle mem with mem | text
  · exact mergeable node mem
  · exact isMergeable_of_isText text

/-- The runs that come out are the runs that went in, settled. -/
theorem exists_settle_of_isRun {begun nodes run : List Fragment}
    (mergeable : ∀ node ∈ begun, node.isMergeable = true)
    (isRun : IsRun (settleRuns begun nodes) run) : ∃ run', run = settle run' := by
  induction nodes generalizing begun with
  | nil =>
      rw [settleRuns, ← List.append_nil (settle begun),
        IsRun.append_iff (isMergeable_of_mem_settle mergeable) (by simp)] at isRun
      rcases isRun with ⟨-, same⟩ | none
      · exact ⟨begun, same⟩
      · exact absurd none IsRun.not_nil
  | cons node rest ih =>
      rw [settleRuns] at isRun
      split at isRun
      · rename_i joins
        refine ih ?_ isRun
        simpa [or_imp, forall_and, joins] using mergeable
      · rename_i apart
        rw [Bool.not_eq_true] at apart
        rcases (IsRun.append_cons_iff (isMergeable_of_mem_settle mergeable) apart).1 isRun
          with ⟨-, same⟩ | later
        · exact ⟨begun, same⟩
        · exact ih (by simp) later

/-- Every run of a repaired list of nodes is settled. -/
theorem settled_of_isRun_repair {nodes run : List Fragment} (isRun : IsRun (repair nodes) run) :
    Settled run := by
  obtain ⟨run', rfl⟩ := exists_settle_of_isRun (by simp) isRun
  exact settled_settle run'

/-! ## All levels -/

theorem forall_mem_settleRuns {p : Fragment → Prop} {begun nodes : List Fragment}
    (pieces : ∀ s, ∀ piece ∈ Template.pieces s, p (.text (String.ofList piece.text)))
    (begins : ∀ node ∈ begun, p node) (holds : ∀ node ∈ nodes, p node) :
    ∀ node ∈ settleRuns begun nodes, p node := by
  induction nodes generalizing begun with
  | nil => exact forall_mem_settle pieces begins
  | cons next rest ih =>
      rw [List.forall_mem_cons] at holds
      rw [settleRuns]
      split
      · refine ih ?_ holds.2
        rw [List.forall_mem_append, List.forall_mem_singleton]
        exact ⟨begins, holds.1⟩
      · rw [List.forall_mem_append, List.forall_mem_cons]
        exact ⟨forall_mem_settle pieces begins, holds.1, ih (List.forall_mem_nil _) holds.2⟩

theorem mem_settleRuns {begun nodes : List Fragment} {node : Fragment}
    (mem : node ∈ settleRuns begun nodes) :
    node ∈ begun ∨ node ∈ nodes ∨ node.isText = true :=
  forall_mem_settleRuns (p := fun node => node ∈ begun ∨ node ∈ nodes ∨ node.isText = true)
    (fun _ _ _ => .inr (.inr rfl)) (fun _ mem => .inl mem) (fun _ mem => .inr (.inl mem)) node mem

theorem children_of_mem_splitImagesFrom {fuel : Nat} {before s : List Char} {node : Fragment}
    (mem : node ∈ splitImagesFrom fuel before s) : node.children = [] := by
  have plain (text : List Char) (mem : node ∈ textNode text) : node.children = [] := by
    rw [textNode] at mem
    split at mem
    · cases mem
    · rw [List.mem_singleton.1 mem, children]
  fun_induction splitImagesFrom fuel before s with
  | case1 before s => exact plain _ mem
  | case2 fuel before => exact plain _ mem
  | case3 fuel before c rest alt url after read ih =>
      rcases List.mem_append.1 mem with mem | mem
      · exact plain _ mem
      · rcases List.mem_cons.1 mem with rfl | mem
        · rfl
        · exact ih mem
  | case4 fuel before c rest read ih => exact ih mem

theorem mem_mergeImages {nodes : List Fragment} {node : Fragment} (mem : node ∈ mergeImages nodes) :
    node ∈ nodes ∨ node.children = [] := by
  obtain ⟨source, among, mem⟩ := List.mem_flatMap.1 mem
  cases source with
  | text value =>
      refine .inr ?_
      dsimp only at mem
      split at mem
      · exact children_of_mem_splitImagesFrom mem
      · rw [List.mem_singleton.1 mem, children]
  | _ => exact .inl (by rw [List.mem_singleton.1 mem]; exact among)

theorem mem_repair {nodes : List Fragment} {node : Fragment} (mem : node ∈ repair nodes) :
    node ∈ nodes ∨ node.children = [] := by
  rcases mem_settleRuns mem with mem | mem | text
  · cases mem
  · exact mem_mergeImages mem
  · cases node <;> first | exact .inr rfl | cases text

theorem children_normalizeNode (node : Fragment) :
    (normalizeNode node).children = normalize node.children := by
  cases node <;> rw [normalizeNode] <;> first | rfl | exact settle_nil.symm

/-- A repaired fragment is normal on every level. -/
theorem normal_normalize (nodes : List Fragment) : Normal (normalize nodes) := by
  intro siblings level
  generalize source : normalize nodes = result at level
  induction level generalizing nodes with
  | top result =>
      subst source
      exact fun run isRun => settled_of_isRun_repair isRun
  | @inside result siblings node mem level ih =>
      subst source
      rcases mem_repair mem with mem | leaf
      · rw [normalizeEach_eq_map] at mem
        obtain ⟨node, -, rfl⟩ := List.mem_map.1 mem
        exact ih node.children (children_normalizeNode node).symm
      · exact ih [] (by rw [leaf]; exact settle_nil)

end Fragment

end UiMarkdown
