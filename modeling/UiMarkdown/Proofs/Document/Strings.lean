import UiMarkdown.Document.Fragment
import UiMarkdown.Proofs.Template.Standing

/-!
# The strings of a fragment

Expressions stand in the strings that the nodes of a fragment hold on all levels: the
values of its texts, and the descriptions and targets of its images.  Its plain text
keeps all of them but the targets.
-/

namespace UiMarkdown

namespace Fragment

def ownValue : Fragment → List (List Char)
  | .text value => [value.toList]
  | _ => []

def ownTarget : Fragment → List (List Char)
  | .image url _ _ => [url.toList]
  | _ => []

def ownStrings : Fragment → List (List Char)
  | .text value => [value.toList]
  | .image url _ alt => [alt.toList, url.toList]
  | _ => []

/-! ## Levels -/

theorem sizeOf_children_lt {node : Fragment} {nodes : List Fragment} (mem : node ∈ nodes) :
    sizeOf node.children < sizeOf nodes := by
  have here := List.sizeOf_lt_of_mem mem
  cases node <;> simp [children] at here ⊢ <;> omega

/-- What holds of nodes if it holds inside each of them holds of all nodes. -/
theorem level_induction {motive : List Fragment → Prop}
    (level : ∀ nodes, (∀ node ∈ nodes, motive node.children) → motive nodes)
    (nodes : List Fragment) : motive nodes := by
  induction size : sizeOf nodes using Nat.strongRecOn generalizing nodes with
  | _ n ih =>
      exact level nodes fun node mem => ih _ (size ▸ sizeOf_children_lt mem) node.children rfl

def throughout (own : Fragment → List (List Char)) : List Fragment → List (List Char)
  | [] => []
  | node :: more => own node ++ (throughout own node.children ++ throughout own more)
termination_by nodes => sizeOf nodes
decreasing_by
  · exact sizeOf_children_lt List.mem_cons_self
  · simp only [List.cons.sizeOf_spec]
    omega

variable {own : Fragment → List (List Char)}

@[simp] theorem throughout_nil : throughout own [] = [] := by
  rw [throughout]

theorem throughout_cons (node : Fragment) (more : List Fragment) :
    throughout own (node :: more) =
      own node ++ (throughout own node.children ++ throughout own more) := by
  rw [throughout]

theorem throughout_append (nodes more : List Fragment) :
    throughout own (nodes ++ more) = throughout own nodes ++ throughout own more := by
  induction nodes with
  | nil => simp
  | cons node nodes ih => simp [throughout_cons, ih]

theorem sublist_throughout {node : Fragment} {nodes : List Fragment} (mem : node ∈ nodes) :
    (throughout own node.children).Sublist (throughout own nodes) := by
  obtain ⟨front, back, rfl⟩ := List.append_of_mem mem
  rw [throughout_append, throughout_cons]
  exact ((List.sublist_append_left _ _).trans (List.sublist_append_right _ _)).trans
    (List.sublist_append_right _ _)

end Fragment

namespace Template

namespace StandAmong

variable {ps : List (List Char)} {texts : List (List Char)}

/-- Spans that stand among texts stand in the text that these are joined to. -/
theorem joinTexts (spans : ∀ p ∈ ps, IsSpan p) (stand : StandAmong ps texts) (blocks : Bool) :
    StandIn ps (Fragment.joinTexts blocks texts) := by
  rw [Fragment.joinTexts]
  split
  · exact ((stand.dropEnd spans).filter_nonempty spans).intercalate _
  · exact stand.flatten

/-- No span stands in a text that has none. -/
theorem eq_nil {s : List Char} (spans : ∀ p ∈ ps, IsSpan p) (stand : StandAmong ps [s])
    (spanless : ¬ HasSpan s) : ps = [] := by
  cases ps with
  | nil => rfl
  | cons p ps =>
      have inside := stand.standIn_of_singleton.infix_of_mem List.mem_cons_self
      exact absurd ((spans p List.mem_cons_self).hasSpan.of_infix inside) spanless

end StandAmong

end Template

namespace Fragment

open Template (IsSpan HasSpan StandIn StandAmong)

/-! ## The plain text -/

variable {ps qs : List (List Char)}

/-- Spans stand in the plain text of a node when they stand in its strings and inside it. -/
theorem standIn_plainText {node : Fragment} (spans : ∀ p ∈ ps ++ qs, IsSpan p)
    (here : StandAmong ps (ownStrings node)) (inside : StandAmong qs (plainTexts node.children))
    (targets : ∀ target ∈ ownTarget node, ¬ HasSpan target) : StandIn (ps ++ qs) node.plainText := by
  rw [List.forall_mem_append] at spans
  cases node with
  | text value =>
      obtain rfl : qs = [] := inside
      rw [List.append_nil, plainText]
      exact here.standIn_of_singleton
  | image url title alt =>
      obtain rfl : qs = [] := inside
      obtain ⟨first, second, rfl, described, targeted⟩ := here
      rw [List.append_nil, List.forall_mem_append] at *
      have none := targeted.eq_nil spans.1.2 (targets _ List.mem_cons_self)
      rw [none, List.append_nil, plainText]
      exact described
  | code | thematicBreak | inlineCode | lineBreak =>
      obtain rfl : ps = [] := here
      obtain rfl : qs = [] := inside
      trivial
  | tableRow children =>
      obtain rfl : ps = [] := here
      rw [plainText]
      exact inside.intercalate _
  | _ =>
      obtain rfl : ps = [] := here
      rw [plainText]
      exact inside.joinTexts spans.2 _

/-- Spans stand among the plain texts of nodes when they stand among the strings but no target. -/
theorem standAmong_plainTexts {nodes : List Fragment} (spans : ∀ p ∈ ps, IsSpan p)
    (stand : StandAmong ps (throughout ownStrings nodes))
    (targets : ∀ target ∈ throughout ownTarget nodes, ¬ HasSpan target) :
    StandAmong ps (plainTexts nodes) := by
  induction nodes using level_induction generalizing ps with
  | level nodes inside =>
      induction nodes generalizing ps with
      | nil =>
          rw [throughout_nil] at stand
          exact stand
      | cons node more ih =>
          rw [throughout_cons] at stand targets
          obtain ⟨own, rest, rfl, here, stand⟩ := stand.split
          obtain ⟨inner, later, rfl, within, behind⟩ := stand.split
          simp only [List.forall_mem_append, List.forall_mem_cons] at spans targets inside
          have texts := inside.1 spans.2.1 within targets.2.1
          refine ⟨own ++ inner, later, by simp, ?_, ih inside.2 spans.2.2 behind targets.2.2⟩
          exact standIn_plainText (List.forall_mem_append.2 ⟨spans.1, spans.2.1⟩) here texts targets.1

end Fragment

end UiMarkdown
