import Mathlib.Data.Set.List
import UiMarkdown.Proofs.Source.Pieces
import UiMarkdown.Proofs.Yaml.Flat

/-!
# Flat payloads

A payload of plain scalars without expressions is read as it was written, and so
is metadata of plain scalars.  So a document of plain prose and code whose
payloads and metadata are flat reads back.
-/

namespace UiMarkdown

open Yaml (Pair)

namespace Payload

/-- Without expressions, nothing is masked while a payload is written. -/
theorem write_of_spanless {payload : Object} (nonempty : payload ≠ [])
    (spanless : ∀ text ∈ Mask.textsOfMembers payload, ¬ Template.HasSpan text) :
    write payload = Yaml.writeMapping payload := by
  have filled : payload.isEmpty = false := by
    rw [Bool.eq_false_iff, ne_eq, List.isEmpty_iff]
    exact nonempty
  have masked (stem : List Char) : Mask.maskJson stem 0 (.obj payload) = (.obj payload, []) := by
    rw [Mask.maskJson, Mask.maskMembers_of_spanless stem 0 payload spanless]
  rw [write, filled, if_neg Bool.false_ne_true, Mask.ofJson, masked]
  dsimp only
  rw [Mask.restore_of_unmasked rfl]

end Payload

namespace Yaml.Pair

theorem allBlank_lines {pairs : List Pair} (nonempty : pairs ≠ []) :
    Text.allBlank (pairs.flatMap line) = false := by
  obtain ⟨pair, pairs, rfl⟩ := List.exists_cons_of_ne_nil nonempty
  rw [Text.allBlank, List.all_eq_false]
  exact ⟨':', by simp [line], by decide⟩

theorem endsLine_lines (pairs : List Pair) : Text.EndsLine (pairs.flatMap line) := by
  rcases pairs.eq_nil_or_concat with rfl | ⟨front, pair, rfl⟩
  · exact Text.endsLine_nil
  · have split : (front.concat pair).flatMap line =
        front.flatMap line ++ (pair.key ++ ':' :: ' ' :: pair.text) ++ ['\n'] := by
      simp [line]
    rw [split]
    exact Text.endsLine_append_feed _

theorem plainBody_lines (pairs : List Pair) : Fence.PlainBody (pairs.flatMap line) := by
  intro c mem other
  obtain ⟨printable, ends⟩ := of_mem_lines mem
  simp only [List.mem_cons, List.not_mem_nil, or_false] at other
  rcases other with rfl | rfl
  · rcases ends with ends | ends <;> cases ends
  · cases printable

end Yaml.Pair

/-- Where all members stand on lines of their own, a mapping is one of pairs. -/
theorem Yaml.exists_pairs {members : List (String × Json)}
    (lines : ∀ member ∈ members, ∃ pair : Pair, pair.member = member) :
    ∃ pairs : List Pair, pairs.map Pair.member = members := by
  have inside : members ∈ Set.range (List.map Pair.member) := by
    rw [Set.range_list_map]
    exact lines
  exact inside

namespace Payload

/-- A payload of plain scalars without expressions, with its keys in order. -/
structure Flat (payload : Object) : Prop where
  ascending : Object.Ascending payload
  lines : ∀ member ∈ payload, ∃ pair : Pair, pair.member = member
  spanless : ∀ text ∈ Mask.textsOfMembers payload, ¬ Template.HasSpan text

theorem flat_nil : Flat [] :=
  ⟨Object.ascending_nil, List.forall_mem_nil _, List.forall_mem_nil _⟩

/-- A flat payload is that of its own Yaml. -/
theorem Flat.plain {payload : Object} (flat : Flat payload) : Plain payload := by
  obtain ⟨pairs, rfl⟩ := Yaml.exists_pairs flat.lines
  rcases eq_or_ne pairs [] with rfl | nonempty
  · exact ⟨List.forall_mem_nil _, rfl⟩
  have filled : pairs.map Pair.member ≠ [] := mt List.map_eq_nil_iff.1 nonempty
  have written : write (pairs.map Pair.member) = pairs.flatMap Pair.line := by
    rw [write_of_spanless filled flat.spanless, Pair.writeMapping_pairs nonempty]
  refine ⟨written ▸ Pair.plainBody_lines pairs, ?_⟩
  rw [written, Fence.ended_of_endsLine (Pair.endsLine_lines pairs), ofBody,
    Pair.allBlank_lines nonempty, if_neg Bool.false_ne_true, Pair.ofText?_lines nonempty]
  exact Object.ofList_of_ascending flat.ascending

end Payload

/-- Metadata of plain scalars is that of its own Yaml. -/
theorem Meta.parse_frontmatter? {metadata : Meta}
    (lines : ∀ member ∈ metadata.toMapping, ∃ pair : Pair, pair.member = member) :
    ∀ yaml ∈ metadata.frontmatter?, Text.EndsLine yaml ∧
      Frontmatter.parse yaml = .ok (Object.ofList metadata.toMapping) := by
  intro yaml isYaml
  obtain ⟨pairs, isMapping⟩ := Yaml.exists_pairs lines
  rw [frontmatter?, ← isMapping] at isYaml
  split at isYaml
  · cases isYaml
  · rename_i filled
    have nonempty : pairs ≠ [] := by
      rintro rfl
      exact filled rfl
    rw [Option.mem_some_iff, Pair.writeMapping_pairs nonempty] at isYaml
    rw [← isYaml, Frontmatter.parse, Pair.allBlank_lines nonempty, if_neg Bool.false_ne_true,
      Pair.ofText?_lines nonempty, isMapping]
    exact ⟨Pair.endsLine_lines pairs, rfl⟩

namespace Node

variable {P Q : Object → Prop}

mutual

theorem Plain.mono (imp : ∀ payload, P payload → Q payload) : {node : Node} → node.Plain P →
    node.Plain Q
  | .passage _ _, plain => by
      rw [Plain] at plain ⊢
      exact plain
  | .leaf _ _ data, plain => by
      rw [Plain] at plain ⊢
      exact imp data plain
  | .code _ _ _, plain => by
      rw [Plain] at plain ⊢
      exact plain
  | .container _ frame children, plain => by
      rw [Plain] at plain ⊢
      exact ⟨imp frame.toPayload plain.1, plain.2.1, PlainAll.mono imp plain.2.2⟩

theorem PlainAll.mono (imp : ∀ payload, P payload → Q payload) : {nodes : List Node} →
    PlainAll P nodes → PlainAll Q nodes
  | [], _ => by rw [PlainAll]; trivial
  | node :: more, plain => by
      rw [PlainAll] at plain ⊢
      exact ⟨Plain.mono imp plain.1, PlainAll.mono imp plain.2⟩

end

end Node

namespace Document

/--
A document of plain prose and code, whose payloads and metadata are flat and in
which nothing is an expression, is plain: so it reads back.
-/
theorem plain_of_flat {document : Document}
    (sorted : { document.metadata with dependencies := {} }.Sorted)
    (lines : ∀ member ∈ document.metadata.toMapping, ∃ pair : Pair, pair.member = member)
    (nodes : Node.PlainAll Payload.Flat document.ast) (apart : Node.SpacedAll document.ast)
    (spanless : ¬ Template.HasSpan document.bodyText) : document.Plain where
  metadata := sorted
  yaml := Meta.parse_frontmatter? lines
  nodes := nodes.mono fun _ flat => flat.plain
  apart := apart
  spanless := spanless

/-- A title, a column with prose and a code sample, and a button after it. -/
theorem readsBack_report :
    let prose : List Prose := [.heading 1 "Title".toList, .paragraph ["One".toList, "two".toList]]
    let document : Document :=
      { empty with
        metadata := { extra := [("title", .str "Weekly report")] }
        ast := [.container "n1" (.vstack []) [.passage "n2" (.ofProse prose),
          .code "n3" ⟨"rust", none⟩ "x\n"],
          .leaf "n4" .button [("disabled", .bool false), ("text", .str "Save the file, now!")]] }
    document.Plain ∧ document.ReadsBack {} := by
  intro prose document
  have title : ∀ member ∈ document.metadata.toMapping, ∃ pair : Pair, pair.member = member :=
    List.forall_mem_singleton.2 (Pair.exists_of_scalar (by decide +kernel) (by decide +kernel)
      (.inr (.inr ⟨_, rfl, by decide +kernel⟩)))
  have button : Payload.Flat [("disabled", .bool false), ("text", .str "Save the file, now!")] := by
    refine ⟨by decide +kernel, ?_, fun text mem => Template.cutSpan?_eq_none_iff.1 ?_⟩
    · refine List.forall_mem_cons.2 ⟨?_, List.forall_mem_singleton.2 ?_⟩
      · exact Pair.exists_of_scalar (by decide +kernel) (by decide +kernel) (.inr (.inl ⟨_, rfl⟩))
      · exact Pair.exists_of_scalar (by decide +kernel) (by decide +kernel)
          (.inr (.inr ⟨_, rfl, by decide +kernel⟩))
    · revert text
      decide +kernel
  have nodes : Node.PlainAll Payload.Flat document.ast := by
    simp only [document, Node.PlainAll, Node.Plain, and_true]
    refine ⟨⟨Payload.flat_nil, rfl, ⟨prose, by decide, by decide +kernel, rfl⟩, ⟨?_, ?_⟩⟩, button⟩
    · exact ⟨"rust".toList, by decide +kernel⟩
    · exact ⟨Text.endsLine_append_feed ['x'], by decide +kernel⟩
  have plain : document.Plain :=
    plain_of_flat ⟨by decide, by decide, by decide, rfl⟩ title nodes
      (by simp [document, Node.SpacedAll, Node.Spaced, Node.isPassage])
      (Template.cutSpan?_eq_none_iff.1 (by decide +kernel))
  exact ⟨plain, plain.readsBack {}⟩

end Document

end UiMarkdown
