import UiMarkdown.Proofs.Document.Strings
import UiMarkdown.Proofs.Document.Run

/-!
# The text that fragments carry

A fragment carries the text of its nodes on all levels, in the order of the document,
with a line feed for a break and the description for an image.  Merging adjacent texts
leaves the carried text as it is, no text empty, and no two texts side by side.
-/

namespace UiMarkdown

namespace Fragment

def ownText : Fragment → List (List Char)
  | .text value | .inlineCode value | .code _ value => [value.toList]
  | .image _ _ alt => [alt.toList]
  | .lineBreak => [['\n']]
  | _ => []

def carried (nodes : List Fragment) : List Char :=
  (throughout ownText nodes).flatten

/-- Siblings without an empty text and without two texts side by side. -/
structure Merged (siblings : List Fragment) : Prop where
  nonempty : ∀ value, .text value ∈ siblings → value ≠ ""
  apart : siblings.IsChain fun a b => ¬ (a.isText = true ∧ b.isText = true)

@[simp] theorem carried_nil : carried [] = [] := by
  rw [carried, throughout_nil, List.flatten_nil]

theorem carried_cons (node : Fragment) (more : List Fragment) :
    carried (node :: more) = (ownText node).flatten ++ (carried node.children ++ carried more) := by
  rw [carried, throughout_cons, List.flatten_append, List.flatten_append, ← carried, ← carried]

theorem carried_append (nodes more : List Fragment) :
    carried (nodes ++ more) = carried nodes ++ carried more := by
  rw [carried, throughout_append, List.flatten_append, ← carried, ← carried]

theorem carried_eq_flatMap (nodes : List Fragment) :
    carried nodes = nodes.flatMap fun node => (ownText node).flatten ++ carried node.children := by
  induction nodes with
  | nil => rw [carried_nil, List.flatMap_nil]
  | cons node more ih => rw [carried_cons, List.flatMap_cons, ih, List.append_assoc]

/-! ## Merging texts -/

section

variable {f : Fragment → List Char} (onText : ∀ value, f (.text value) = value.toList)

include onText

theorem flatMap_consText (value : String) (nodes : List Fragment) :
    (consText value nodes).flatMap f = value.toList ++ nodes.flatMap f := by
  rw [consText.eq_def]
  split
  · simp [onText]
  · split
    · rename_i empty
      rw [String.isEmpty_iff.1 empty]
      rfl
    · simp [onText]

/-- What is read off nodes one by one, and off a text as it stands, stays when texts merge. -/
theorem flatMap_mergeText (nodes : List Fragment) :
    (mergeText nodes).flatMap f = nodes.flatMap f := by
  induction nodes with
  | nil => rfl
  | cons node more ih =>
      cases node with
      | text value => rw [mergeText, flatMap_consText onText, ih, List.flatMap_cons, onText]
      | _ => rw [mergeText, List.flatMap_cons, List.flatMap_cons, ih]; simp

end

theorem carried_mergeText (nodes : List Fragment) : carried (mergeText nodes) = carried nodes := by
  rw [carried_eq_flatMap, carried_eq_flatMap]
  exact flatMap_mergeText (fun value => by simp [ownText, children]) nodes

theorem Merged.nil : Merged [] :=
  ⟨by simp, .nil⟩

/-- A node that is no text may stand in front of merged siblings. -/
theorem Merged.cons {node : Fragment} {siblings : List Fragment} (merged : Merged siblings)
    (markup : node.isText = false) : Merged (node :: siblings) where
  nonempty value mem := by
    rcases List.mem_cons.1 mem with rfl | mem
    · cases markup
    · exact merged.nonempty value mem
  apart := by
    refine List.isChain_cons.2 ⟨fun next _ => ?_, merged.apart⟩
    simp [markup]

/-- A text goes into the text behind it, or stands in front of other nodes unless it is empty. -/
theorem Merged.consText {siblings : List Fragment} (merged : Merged siblings) (value : String) :
    Merged (consText value siblings) := by
  obtain ⟨nonempty, apart⟩ := merged
  rw [Fragment.consText.eq_def]
  split
  · rename_i more rest
    rw [List.isChain_cons] at apart
    refine ⟨fun other mem => ?_, List.isChain_cons.2 apart⟩
    rcases List.mem_cons.1 mem with same | mem
    · rw [text.inj same]
      simp [nonempty more List.mem_cons_self]
    · exact nonempty other (List.mem_cons_of_mem _ mem)
  · rename_i markup
    split
    · exact ⟨nonempty, apart⟩
    · rename_i some
      refine ⟨fun other mem => ?_, List.isChain_cons.2 ⟨fun next mem => ?_, apart⟩⟩
      · rcases List.mem_cons.1 mem with same | mem
        · rw [text.inj same]
          simpa using some
        · exact nonempty other mem
      · obtain ⟨rest, rfl⟩ := List.head?_eq_some_iff.1 mem
        cases next with
        | text more => exact absurd rfl (markup more rest)
        | _ => simp [isText]

theorem merged_mergeText (nodes : List Fragment) : Merged (mergeText nodes) := by
  induction nodes with
  | nil => exact .nil
  | cons node more ih =>
      cases node with
      | text value => exact ih.consText value
      | _ => exact ih.cons rfl

theorem mem_consText {value : String} {nodes : List Fragment} {node : Fragment}
    (mem : node ∈ consText value nodes) : node ∈ nodes ∨ node.isText = true := by
  rw [consText.eq_def] at mem
  split at mem
  · rcases List.mem_cons.1 mem with rfl | mem
    · exact .inr rfl
    · exact .inl (List.mem_cons_of_mem _ mem)
  · split at mem
    · exact .inl mem
    · exact (List.mem_cons.1 mem).symm.imp_right fun same => by rw [same, isText]

/-- Merging texts makes no node but texts. -/
theorem mem_mergeText {nodes : List Fragment} {node : Fragment} (mem : node ∈ mergeText nodes) :
    node ∈ nodes ∨ node.isText = true := by
  induction nodes with
  | nil => cases mem
  | cons first more ih =>
      cases first with
      | text value =>
          rcases mem_consText mem with mem | text
          · exact (ih mem).imp_left (List.mem_cons_of_mem _)
          · exact .inr text
      | _ =>
          rcases List.mem_cons.1 mem with rfl | mem
          · exact .inl List.mem_cons_self
          · exact (ih mem).imp_left (List.mem_cons_of_mem _)

end Fragment

end UiMarkdown
