import Mathlib.Data.List.Lex
import UiMarkdown.Proofs.Json.Object

/-!
# Paths into values

A path leads into a value by steps to the items of arrays and the members of objects.
The texts of a value, listed level by level as they stand, are exactly those to which
paths lead, and they are listed in the order of their paths: items by position, members
by key, and what is inside one before what comes after it.
-/

namespace UiMarkdown

namespace Json

inductive Step where
  | item (position : Nat)
  | member (key : String)
  deriving DecidableEq, Repr

namespace Step

/-- The order of steps into one value: items go by position, and members by key. -/
def Before : Step → Step → Prop
  | .item i, .item j => i < j
  | .member k, .member l => k < l
  | _, _ => False

instance : Std.Asymm Before where
  asymm a b := by
    cases a <;> cases b <;> simp only [Before, not_false_eq_true, imp_true_iff]
    · exact lt_asymm
    · exact lt_asymm

end Step

def at? : Json → List Step → Option Json
  | value, [] => some value
  | .arr items, .item i :: path => items[i]?.bind (at? · path)
  | .obj members, .member key :: path => (Object.get? members key).bind (at? · path)
  | _, _ => none

mutual

def texts : Json → List (List Step × String)
  | .str s => [([], s)]
  | .arr items => textsOfItems 0 items
  | .obj members => textsOfMembers members
  | _ => []

def textsOfItems (position : Nat) : List Json → List (List Step × String)
  | [] => []
  | item :: more =>
      item.texts.map (Prod.map (.item position :: ·) id) ++ textsOfItems (position + 1) more

def textsOfMembers : List (String × Json) → List (List Step × String)
  | [] => []
  | (key, value) :: more =>
      value.texts.map (Prod.map (.member key :: ·) id) ++ textsOfMembers more

end

theorem mem_map_step_iff {entries : List (List Step × String)} {step : Step}
    {path : List Step} {s : String} :
    (path, s) ∈ entries.map (Prod.map (step :: ·) id) ↔
      ∃ rest, path = step :: rest ∧ (rest, s) ∈ entries := by
  rw [List.mem_map]
  constructor
  · rintro ⟨⟨rest, t⟩, mem, same⟩
    cases same
    exact ⟨rest, rfl, mem⟩
  · rintro ⟨rest, rfl, mem⟩
    exact ⟨(rest, s), mem, rfl⟩

/-! ## Every text has its path -/

mutual

/-- The texts that are listed are those to which paths lead. -/
theorem mem_texts_iff {path : List Step} {s : String} :
    (value : Json) → value.Ordered → ((path, s) ∈ value.texts ↔ value.at? path = some (.str s))
  | .str t, _ => by
      cases path <;> simp [texts, at?, eq_comm]
  | .arr items, ordered => by
      rw [Ordered] at ordered
      rw [texts, mem_textsOfItems_iff items ordered]
      constructor
      · rintro ⟨i, rest, rfl, found⟩
        rw [Nat.zero_add, at?]
        exact found
      · intro found
        match path, found with
        | .item i :: rest, found => exact ⟨i, rest, by rw [Nat.zero_add], found⟩
  | .obj members, ordered => by
      rw [Ordered] at ordered
      rw [texts, mem_textsOfMembers_iff members ordered.1 ordered.2]
      constructor
      · rintro ⟨key, rest, rfl, found⟩
        exact found
      · intro found
        match path, found with
        | .member key :: rest, found => exact ⟨key, rest, rfl, found⟩
  | .null, _ | .bool _, _ | .num _, _ => by
      cases path <;> simp [texts, at?]

theorem mem_textsOfItems_iff {position : Nat} {path : List Step} {s : String} :
    (items : List Json) → OrderedItems items → ((path, s) ∈ textsOfItems position items ↔
      ∃ i rest, path = .item (position + i) :: rest ∧
        items[i]?.bind (at? · rest) = some (.str s))
  | [], _ => by simp [textsOfItems]
  | item :: more, ordered => by
      rw [OrderedItems] at ordered
      rw [textsOfItems, List.mem_append, mem_map_step_iff, mem_textsOfItems_iff more ordered.2]
      constructor
      · rintro (⟨rest, rfl, mem⟩ | ⟨i, rest, rfl, found⟩)
        · exact ⟨0, rest, rfl, (mem_texts_iff item ordered.1).1 mem⟩
        · exact ⟨i + 1, rest, by rw [Nat.add_assoc, Nat.add_comm 1], found⟩
      · rintro ⟨i, rest, rfl, found⟩
        cases i with
        | zero => exact .inl ⟨rest, rfl, (mem_texts_iff item ordered.1).2 found⟩
        | succ i => exact .inr ⟨i, rest, by rw [Nat.add_assoc, Nat.add_comm 1], found⟩

theorem mem_textsOfMembers_iff {path : List Step} {s : String} :
    (members : List (String × Json)) → Object.Ascending members → OrderedMembers members →
      ((path, s) ∈ textsOfMembers members ↔
        ∃ key rest, path = .member key :: rest ∧
          (Object.get? members key).bind (at? · rest) = some (.str s))
  | [], _, _ => by simp [textsOfMembers, Object.get?_nil]
  | (key, value) :: more, ascending, ordered => by
      rw [OrderedMembers] at ordered
      rw [Object.ascending_cons_iff] at ascending
      rw [textsOfMembers, List.mem_append, mem_map_step_iff,
        mem_textsOfMembers_iff more ascending.2 ordered.2]
      constructor
      · rintro (⟨rest, rfl, mem⟩ | ⟨other, rest, rfl, found⟩)
        · refine ⟨key, rest, rfl, ?_⟩
          rw [Object.get?_cons, if_pos rfl]
          exact (mem_texts_iff value ordered.1).1 mem
        · refine ⟨other, rest, rfl, ?_⟩
          -- the key is not one of the later ones
          have above : other ≠ key := by
            rintro rfl
            obtain ⟨inner, isMember, -⟩ := Option.bind_eq_some_iff.1 found
            exact lt_irrefl other (ascending.1 (other, inner) (Object.mem_of_get? isMember))
          rwa [Object.get?_cons, if_neg above]
      · rintro ⟨other, rest, rfl, found⟩
        rw [Object.get?_cons] at found
        by_cases same : other = key
        · rw [if_pos same] at found
          exact .inl ⟨rest, by rw [same], (mem_texts_iff value ordered.1).2 found⟩
        · rw [if_neg same] at found
          exact .inr ⟨other, rest, rfl, found⟩

end

/-! ## Paths in order -/

/-- The order of paths that part: by the step where they part. -/
abbrev Earlier (a b : List Step × String) : Prop :=
  List.Lex Step.Before a.1 b.1

theorem pairwise_map_step {entries : List (List Step × String)} (step : Step)
    (sorted : entries.Pairwise Earlier) :
    (entries.map (Prod.map (step :: ·) id)).Pairwise Earlier :=
  List.pairwise_map.2 (sorted.imp fun earlier => .cons earlier)

mutual

/-- The texts are listed in the order of their paths. -/
theorem pairwise_texts : (value : Json) → value.Ordered → value.texts.Pairwise Earlier
  | .str _, _ => by
      rw [texts]
      exact List.pairwise_singleton _ _
  | .arr items, ordered => by
      rw [Ordered] at ordered
      rw [texts]
      exact pairwise_textsOfItems 0 items ordered
  | .obj members, ordered => by
      rw [Ordered] at ordered
      rw [texts]
      exact pairwise_textsOfMembers members ordered.1 ordered.2
  | .null, _ | .bool _, _ | .num _, _ => by
      rw [texts]
      · exact List.Pairwise.nil
      all_goals simp

theorem pairwise_textsOfItems : (position : Nat) → (items : List Json) → OrderedItems items →
    (textsOfItems position items).Pairwise Earlier
  | _, [], _ => List.Pairwise.nil
  | position, item :: more, ordered => by
      rw [OrderedItems] at ordered
      rw [textsOfItems, List.pairwise_append]
      refine ⟨pairwise_map_step _ (pairwise_texts item ordered.1),
        pairwise_textsOfItems (position + 1) more ordered.2, ?_⟩
      rintro ⟨path, s⟩ mem ⟨other, t⟩ later
      obtain ⟨rest, rfl, -⟩ := mem_map_step_iff.1 mem
      obtain ⟨i, inner, rfl, -⟩ := (mem_textsOfItems_iff more ordered.2).1 later
      exact .rel (by rw [Step.Before]; omega)

theorem pairwise_textsOfMembers :
    (members : List (String × Json)) → Object.Ascending members → OrderedMembers members →
      (textsOfMembers members).Pairwise Earlier
  | [], _, _ => List.Pairwise.nil
  | (key, value) :: more, ascending, ordered => by
      rw [OrderedMembers] at ordered
      rw [Object.ascending_cons_iff] at ascending
      rw [textsOfMembers, List.pairwise_append]
      refine ⟨pairwise_map_step _ (pairwise_texts value ordered.1),
        pairwise_textsOfMembers more ascending.2 ordered.2, ?_⟩
      rintro ⟨path, s⟩ mem ⟨other, t⟩ later
      obtain ⟨rest, rfl, -⟩ := mem_map_step_iff.1 mem
      obtain ⟨second, inner, rfl, found⟩ :=
        (mem_textsOfMembers_iff more ascending.2 ordered.2).1 later
      obtain ⟨value', isMember, -⟩ := Option.bind_eq_some_iff.1 found
      exact .rel (ascending.1 _ (Object.mem_of_get? isMember))

end

end Json

end UiMarkdown
