import UiMarkdown.Document.Decode
import UiMarkdown.Proofs.Json.Ordered

/-!
# Members of objects

An object that is collected from members has the last of those with a key under it.
So members whose names are taken can be told from those that are not.
-/

namespace UiMarkdown

namespace Object

/-! ## Looking up -/

theorem get?_nil (key : String) : get? [] key = none :=
  rfl

theorem get?_cons (first : String × Json) (rest : Object) (key : String) :
    get? (first :: rest) key = if key = first.1 then some first.2 else get? rest key := by
  rw [get?, List.lookup_cons]
  by_cases same : key = first.1
  · rw [beq_iff_eq.2 same, if_pos same]
  · rw [beq_eq_false_iff_ne.2 same, if_neg same]
    rfl

theorem get?_append (object more : Object) (key : String) :
    get? (object ++ more) key = (get? object key).or (get? more key) :=
  List.lookup_append

theorem get?_eq_none_iff {object : Object} {key : String} :
    get? object key = none ↔ ∀ member ∈ object, member.1 ≠ key := by
  induction object with
  | nil => simp [get?_nil]
  | cons first rest ih =>
      rw [get?_cons, List.forall_mem_cons, ← ih]
      by_cases same : key = first.1
      · simp [same]
      · simp [same, eq_comm]

theorem mem_of_get? {object : Object} {key : String} {value : Json}
    (found : get? object key = some value) : (key, value) ∈ object := by
  induction object with
  | nil => cases found
  | cons first rest ih =>
      rw [get?_cons] at found
      split at found
      · rename_i same
        cases found
        rw [same]
        exact List.mem_cons_self
      · exact List.mem_cons_of_mem _ (ih found)

theorem get?_insert (object : Object) (key : String) (value : Json) (other : String) :
    (object.insert key value).get? other =
      if other = key then some value else object.get? other := by
  induction object with
  | nil => rw [insert, get?_cons]
  | cons first rest ih =>
      obtain ⟨k, v⟩ := first
      rw [insert]
      split
      · rw [get?_cons]
      · split
        · rename_i same
          rw [beq_iff_eq] at same
          rw [get?_cons, get?_cons, ← same]
          by_cases here : other = key <;> simp [here]
        · rename_i different
          rw [beq_iff_eq] at different
          rw [get?_cons, get?_cons, ih]
          by_cases here : other = k
          · simp [here, Ne.symm different]
          · simp [here]

theorem get?_foldl_insert (members : List (String × Json)) (object : Object) (key : String) :
    get? (members.foldl (fun object (key, value) => object.insert key value) object) key =
      (get? members.reverse key).or (object.get? key) := by
  induction members generalizing object with
  | nil => rfl
  | cons member more ih =>
      rw [List.foldl_cons, ih, List.reverse_cons, get?_append, get?_insert, get?_cons, get?_nil]
      by_cases same : key = member.1 <;> simp [same]

/-- A key that has a value keeps it. -/
theorem get?_insertNew (object : Object) (key : String) (value : Json) (other : String) :
    (object.insertNew key value).get? other =
      (object.get? other).or (if other = key then some value else none) := by
  unfold insertNew contains
  split
  · rename_i taken
    obtain ⟨old, found⟩ := Option.isSome_iff_exists.1 taken
    by_cases same : other = key
    · rw [same, found, Option.some_or]
    · rw [if_neg same, Option.or_none]
  · rename_i free
    rw [Option.not_isSome_iff_eq_none] at free
    rw [get?_insert]
    by_cases same : other = key
    · rw [same, if_pos rfl, if_pos rfl, free, Option.none_or]
    · rw [if_neg same, if_neg same, Option.or_none]

/-- Of the members with a key the last one counts. -/
theorem get?_ofList (members : List (String × Json)) (key : String) :
    (ofList members).get? key = get? members.reverse key := by
  rw [ofList, get?_foldl_insert, get?_nil, Option.or_none]

/-- A key that no later member has is looked up among the first members. -/
theorem get?_ofList_append (members : List (String × Json)) {more : List (String × Json)}
    {key : String} (free : ∀ member ∈ more, member.1 ≠ key) :
    (ofList (members ++ more)).get? key = get? members.reverse key := by
  have none : get? more.reverse key = none :=
    get?_eq_none_iff.2 fun member mem => free member (List.mem_reverse.1 mem)
  rw [get?_ofList, List.reverse_append, get?_append, none, Option.none_or]

/-! ## Ascending members -/

theorem ascending_cons_iff {first : String × Json} {rest : Object} :
    Ascending (first :: rest) ↔ (∀ member ∈ rest, first.1 < member.1) ∧ Ascending rest := by
  rw [Ascending, Ascending, List.map_cons, List.pairwise_cons, List.forall_mem_map]

/-- The keys below the first one have no value. -/
theorem get?_eq_none_of_lt {first : String × Json} {rest : Object} {key : String}
    (ascending : Ascending (first :: rest)) (below : key < first.1) :
    get? (first :: rest) key = none := by
  rw [get?_eq_none_iff, List.forall_mem_cons]
  have above := (ascending_cons_iff.1 ascending).1
  exact ⟨(ne_of_lt below).symm,
    fun member mem => (ne_of_lt (lt_trans below (above member mem))).symm⟩

/-- Among members in ascending order a key has one value, looked up from either end. -/
theorem get?_reverse {object : Object} (ascending : Ascending object) (key : String) :
    get? object.reverse key = get? object key := by
  have collected := get?_ofList object key
  rwa [ofList_of_ascending ascending, eq_comm] at collected

/-- Members in ascending order are determined by the values of keys. -/
theorem eq_of_get? {a b : Object} (ascendingA : Ascending a) (ascendingB : Ascending b)
    (same : ∀ key, get? a key = get? b key) : a = b := by
  induction a generalizing b with
  | nil =>
      cases b with
      | nil => rfl
      | cons first rest =>
          have found := same first.1
          rw [get?_nil, get?_cons, if_pos rfl] at found
          cases found
  | cons first rest ih =>
      cases b with
      | nil =>
          have found := same first.1
          rw [get?_nil, get?_cons, if_pos rfl] at found
          cases found
      | cons first' rest' =>
          obtain ⟨k, v⟩ := first
          obtain ⟨k', v'⟩ := first'
          have here := same k
          have there := same k'
          rw [get?_cons, if_pos rfl] at here
          rw [get?_cons (k', v'), if_pos rfl] at there
          obtain rfl : k = k' := by
            rcases lt_trichotomy k k' with below | equal | above
            · rw [get?_eq_none_of_lt ascendingB below] at here
              cases here
            · exact equal
            · rw [get?_eq_none_of_lt ascendingA above] at there
              cases there
          rw [get?_cons, if_pos rfl] at here
          cases here
          rw [ascending_cons_iff] at ascendingA ascendingB
          rw [ih ascendingA.2 ascendingB.2]
          intro key
          by_cases isFirst : key = k
          · have none {rest : Object} (above : ∀ member ∈ rest, k < member.1) : get? rest k = none :=
              get?_eq_none_iff.2 fun member mem => (ne_of_lt (above member mem)).symm
            rw [isFirst, none ascendingA.1, none ascendingB.1]
          · have later := same key
            rwa [get?_cons, get?_cons, if_neg isFirst, if_neg isFirst] at later

/-! ## Leaving out names -/

theorem mem_without_iff {object : Object} {names : List String} {member : String × Json} :
    member ∈ object.without names ↔ member ∈ object ∧ member.1 ∉ names := by
  rw [without, List.mem_filter]
  simp

theorem erase_eq_without (object : Object) (key : String) :
    object.erase key = object.without [key] := by
  rw [erase, without]
  refine List.filter_congr fun member _ => ?_
  simp [bne, beq_eq_decide]

theorem without_without (object : Object) (names more : List String) :
    (object.without names).without more = object.without (names ++ more) := by
  rw [without, without, List.filter_filter, without]
  refine List.filter_congr fun member _ => ?_
  simp [Bool.and_comm]

/-- Leaving out a name that no member has changes nothing. -/
theorem without_eq_self {object : Object} {names : List String}
    (free : ∀ member ∈ object, member.1 ∉ names) : object.without names = object :=
  List.filter_eq_self.2 fun member mem => by simpa using free member mem

/-- Erasing a name that has no value changes nothing. -/
theorem erase_eq_self {object : Object} {key : String} (absent : object.get? key = none) :
    object.erase key = object := by
  rw [erase_eq_without]
  refine without_eq_self fun member mem => ?_
  rw [List.mem_singleton]
  exact get?_eq_none_iff.1 absent member mem

theorem ascending_without {object : Object} (ascending : Ascending object)
    (names : List String) : Ascending (object.without names) :=
  ascending.sublist (List.filter_sublist.map _)

theorem get?_without (object : Object) (names : List String) (key : String) :
    (object.without names).get? key = if key ∈ names then none else object.get? key := by
  induction object with
  | nil => rw [without, List.filter_nil, get?_nil, ite_self]
  | cons first rest ih =>
      rw [without] at ih
      rw [without, List.filter_cons, get?_cons]
      by_cases taken : first.1 ∈ names
      · rw [if_neg (by simpa using taken), ih]
        by_cases same : key = first.1
        · rw [same, if_pos taken, if_pos taken]
        · rw [if_neg same]
      · rw [if_pos (by simpa using taken), get?_cons, ih]
        by_cases same : key = first.1
        · rw [if_pos same, if_pos same, same, if_neg taken]
        · rw [if_neg same, if_neg same]

theorem get?_erase (object : Object) (name key : String) :
    (object.erase name).get? key = if key = name then none else object.get? key := by
  simp only [erase_eq_without, get?_without, List.mem_singleton]

/-- Members under names of their own do not mix with those that are added to them. -/
theorem without_ofList_append {members extra : List (String × Json)} {names : List String}
    (ascending : Ascending extra) (apart : ∀ member ∈ extra, member.1 ∉ names)
    (named : ∀ member ∈ members, member.1 ∈ names) :
    (ofList (members ++ extra)).without names = extra := by
  refine eq_of_get? (ascending_without (ascending_ofList _) names) ascending fun key => ?_
  have collected := get?_ofList extra key
  rw [ofList_of_ascending ascending] at collected
  rw [get?_without]
  split
  · rename_i taken
    exact (get?_eq_none_iff.2 fun member mem same => apart member mem (same ▸ taken)).symm
  · rename_i free
    have none : get? members.reverse key = none :=
      get?_eq_none_iff.2 fun member mem same =>
        free (same ▸ named member (List.mem_reverse.1 mem))
    rw [get?_ofList, List.reverse_append, get?_append, none, Option.or_none, collected]

end Object

/-! ## The depth of members -/

namespace Json

theorem depth_le_depthMembers {members : List (String × Json)} {member : String × Json}
    (mem : member ∈ members) : member.2.depth ≤ depthMembers members := by
  induction members with
  | nil => cases mem
  | cons first more ih =>
      rw [depthMembers]
      rcases List.mem_cons.1 mem with rfl | later
      · exact Nat.le_max_left _ _
      · exact Nat.le_trans (ih later) (Nat.le_max_right _ _)

/-- An object has more levels than the value of any of its keys. -/
theorem depth_lt_of_get? {object : Object} {key : String} {value : Json}
    (found : object.get? key = some value) : value.depth < (Json.obj object).depth := by
  rw [depth]
  exact Nat.lt_succ_of_le (depth_le_depthMembers (Object.mem_of_get? found))

end Json

end UiMarkdown
