import Mathlib.Data.String.Basic
import UiMarkdown.Json.Basic

/-!
# Ordered values

Every object that is read or built has its members in ascending order of their
keys.  This is a property of the tree as a whole; it makes the list of members
the only one for its object, so that collecting the members once more changes
nothing.
-/

namespace UiMarkdown

namespace Object

/-- The keys of the members stand in ascending order, each once. -/
def Ascending (members : List (String × Json)) : Prop :=
  (members.map (·.1)).Pairwise (· < ·)

instance (members : List (String × Json)) : Decidable (Ascending members) :=
  inferInstanceAs (Decidable ((members.map (·.1)).Pairwise (· < ·)))

/-- A key above all others takes the last place. -/
theorem insert_of_forall_lt {object : Object} {key : String} (value : Json)
    (above : ∀ member ∈ object, member.1 < key) :
    object.insert key value = object ++ [(key, value)] := by
  induction object with
  | nil => rfl
  | cons member rest ih =>
      have below := above member List.mem_cons_self
      rw [insert, if_neg (lt_asymm below), if_neg (by simpa using (ne_of_lt below).symm),
        ih fun m mem => above m (List.mem_cons_of_mem _ mem), List.cons_append]

theorem foldl_insert_of_ascending {object : Object} {members : List (String × Json)}
    (ascending : Ascending (object ++ members)) :
    members.foldl (fun object (key, value) => object.insert key value) object =
      object ++ members := by
  induction members generalizing object with
  | nil => simp
  | cons member rest ih =>
      obtain ⟨key, value⟩ := member
      have above : ∀ m ∈ object, m.1 < key := by
        intro m mem
        rw [Ascending, List.map_append, List.pairwise_append] at ascending
        exact ascending.2.2 m.1 (List.mem_map_of_mem mem) key (by simp)
      have joined : object ++ (key, value) :: rest = (object ++ [(key, value)]) ++ rest := by simp
      simp only [List.foldl_cons, insert_of_forall_lt value above]
      rw [joined] at ascending ⊢
      exact ih ascending

theorem ascending_nil : Ascending [] :=
  List.Pairwise.nil

theorem mem_of_mem_insert {object : Object} {key : String} {value : Json} {member : String × Json}
    (mem : member ∈ object.insert key value) : member = (key, value) ∨ member ∈ object := by
  induction object with
  | nil => exact .inl (List.mem_singleton.1 mem)
  | cons first rest ih =>
      obtain ⟨k, v⟩ := first
      rw [insert] at mem
      split at mem
      · exact List.mem_cons.1 mem
      · split at mem
        · exact (List.mem_cons.1 mem).imp_right (List.mem_cons_of_mem _)
        · rcases List.mem_cons.1 mem with rfl | later
          · exact .inr List.mem_cons_self
          · exact (ih later).imp_right (List.mem_cons_of_mem _)

/-- Setting a key keeps the keys in ascending order. -/
theorem ascending_insert {object : Object} (ascending : Ascending object) (key : String)
    (value : Json) : Ascending (object.insert key value) := by
  induction object with
  | nil => exact List.pairwise_singleton _ _
  | cons first rest ih =>
      obtain ⟨k, v⟩ := first
      rw [Ascending, List.map_cons, List.pairwise_cons, List.forall_mem_map] at ascending
      obtain ⟨above, later⟩ := ascending
      rw [insert]
      split
      · rename_i below
        rw [Ascending, List.map_cons, List.pairwise_cons, List.map_cons, List.forall_mem_cons,
          List.forall_mem_map, List.pairwise_cons, List.forall_mem_map]
        exact ⟨⟨below, fun m mem => lt_trans below (above m mem)⟩, above, later⟩
      · split
        · rename_i same
          rw [beq_iff_eq] at same
          subst same
          rw [Ascending, List.map_cons, List.pairwise_cons, List.forall_mem_map]
          exact ⟨above, later⟩
        · rename_i notBelow different
          rw [beq_iff_eq] at different
          rw [Ascending, List.map_cons, List.pairwise_cons, List.forall_mem_map]
          refine ⟨?_, ih later⟩
          intro m mem
          rcases mem_of_mem_insert mem with rfl | old
          · exact lt_of_le_of_ne (not_lt.1 notBelow) (Ne.symm different)
          · exact above m old

/-- Collecting members invents none, and puts them into ascending order. -/
theorem foldl_insert_spec {object : Object} (ascending : Ascending object)
    (members : List (String × Json)) :
    Ascending (members.foldl (fun (object : Object) (key, value) => object.insert key value)
        object) ∧
      ∀ m ∈ members.foldl (fun (object : Object) (key, value) => object.insert key value) object,
        m ∈ object ∨ m ∈ members := by
  induction members generalizing object with
  | nil => exact ⟨ascending, fun m mem => .inl mem⟩
  | cons member rest ih =>
      obtain ⟨kept, from_rest⟩ := ih (ascending_insert ascending member.1 member.2)
      refine ⟨kept, fun m mem => ?_⟩
      rcases from_rest m mem with early | late
      · rcases mem_of_mem_insert early with rfl | old
        · exact .inr List.mem_cons_self
        · exact .inl old
      · exact .inr (List.mem_cons_of_mem _ late)

theorem ascending_ofList (members : List (String × Json)) : Ascending (ofList members) :=
  (foldl_insert_spec ascending_nil members).1

theorem mem_of_mem_ofList {members : List (String × Json)} {member : String × Json}
    (mem : member ∈ ofList members) : member ∈ members :=
  ((foldl_insert_spec ascending_nil members).2 member mem).resolve_left List.not_mem_nil

/-- Members in ascending order of their keys are an object as they stand. -/
theorem ofList_of_ascending {members : List (String × Json)} (ascending : Ascending members) :
    ofList members = members := by
  rw [ofList, foldl_insert_of_ascending (by simpa using ascending), List.nil_append]

end Object

namespace Json

mutual

/-- Every object in a value has its keys in ascending order. -/
def Ordered : Json → Prop
  | .arr items => OrderedItems items
  | .obj members => Object.Ascending members ∧ OrderedMembers members
  | _ => True

def OrderedItems : List Json → Prop
  | [] => True
  | item :: more => Ordered item ∧ OrderedItems more

def OrderedMembers : List (String × Json) → Prop
  | [] => True
  | (_, value) :: more => Ordered value ∧ OrderedMembers more

end

theorem orderedMembers_iff {members : List (String × Json)} :
    OrderedMembers members ↔ ∀ member ∈ members, member.2.Ordered := by
  induction members with
  | nil => simp [OrderedMembers]
  | cons member more ih => rw [OrderedMembers, ih, List.forall_mem_cons]

/-- An object that is collected from ordered values is ordered. -/
theorem ordered_ofList {members : List (String × Json)} (ordered : OrderedMembers members) :
    (Json.obj (Object.ofList members)).Ordered := by
  rw [Ordered]
  refine ⟨Object.ascending_ofList members, orderedMembers_iff.2 ?_⟩
  intro member mem
  exact orderedMembers_iff.1 ordered member (Object.mem_of_mem_ofList mem)

end Json

end UiMarkdown
