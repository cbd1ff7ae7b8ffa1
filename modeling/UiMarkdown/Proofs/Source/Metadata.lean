import Mathlib.Data.List.Nodup
import UiMarkdown.Compile.Document
import UiMarkdown.Proofs.Json.Object
import UiMarkdown.Source.Writer

/-!
# The normal form of metadata

Sorting raw metadata takes the sections and the identity keys out of it by name and the
shorthands by their sigil, so that nothing which remains could be taken once more.  The
mapping that is written of sorted metadata has the sections next to the remaining keys,
none in the place of another, and sorting it gives the same metadata again.
-/

namespace UiMarkdown

namespace Meta

def isShorthand (key : String) : Bool :=
  match key.toList with
  | '$' :: _ | '@' :: _ | '#' :: _ => true
  | _ => false

/-- Metadata in which nothing that remains beside the sections could be sorted into them. -/
structure Sorted (m : Meta) : Prop where
  ascending : Object.Ascending m.extra
  named : ∀ member ∈ m.extra, member.1 ∉ sectionNames ++ identityKeys
  shorthands : ∀ member ∈ m.extra, isShorthand member.1 = false
  dependencies : m.dependencies = {}

/-! ## Taking keys out -/

/-- What remains without a section has neither its name nor one taken out before. -/
theorem free_of_takeSection {raw part rest : Object} {names : List String} {key : String}
    (taken : takeSection raw key = (part, rest)) (free : ∀ member ∈ raw, member.1 ∉ names)
    (other : key ++ "_invalid" ∉ key :: names) : ∀ member ∈ rest, member.1 ∉ key :: names := by
  have erased : ∀ member ∈ raw.erase key, member.1 ∉ key :: names := by
    intro member mem
    rw [Object.erase_eq_without, Object.mem_without_iff, List.mem_singleton] at mem
    rw [List.mem_cons, not_or]
    exact ⟨mem.2, free member mem.1⟩
  rw [takeSection] at taken
  split at taken
  · cases taken
    exact erased
  · cases taken
    exact erased
  · cases taken
    intro member mem
    rcases Object.mem_of_mem_insert mem with rfl | old
    · exact other
    · exact erased member old
  · rename_i none
    cases taken
    intro member mem
    rw [List.mem_cons, not_or]
    exact ⟨Object.get?_eq_none_iff.1 none member mem, free member mem⟩

/-- What remains without the identity keys is what was there, without these keys. -/
theorem free_of_foldl_takeIdentity {keys : List String} {state : Object × Object}
    {identity rest : Object} (taken : keys.foldl takeIdentity state = (identity, rest)) :
    ∀ member ∈ rest, member ∈ state.2 ∧ member.1 ∉ keys := by
  induction keys generalizing state with
  | nil =>
      rw [List.foldl_nil] at taken
      rw [taken]
      simp
  | cons key more ih =>
      intro member mem
      obtain ⟨kept, free⟩ := ih taken member mem
      rw [List.mem_cons, not_or]
      rw [takeIdentity] at kept
      split at kept
      · rw [Object.erase_eq_without, Object.mem_without_iff, List.mem_singleton] at kept
        exact ⟨kept.1, kept.2, free⟩
      · rename_i none
        exact ⟨kept, Object.get?_eq_none_iff.1 none member kept, free⟩

/-- Sorting takes the named keys out first and places the other keys one by one. -/
theorem exists_ofRaw_eq_foldl_place (raw : Object) :
    ∃ (m : Meta) (rest : Object), ofRaw raw = rest.foldl place m ∧ m.extra = [] ∧
      m.dependencies = {} ∧ ∀ member ∈ rest, member.1 ∉ sectionNames ++ identityKeys := by
  rw [ofRaw]
  split
  rename_i identity withoutIdentity hypernote
  split
  rename_i queries withoutQueries isQueries
  split
  rename_i actions withoutActions isActions
  split
  rename_i components withoutComponents isComponents
  split
  rename_i events withoutEvents isEvents
  split
  rename_i named rest isNamed
  have free := free_of_takeSection isEvents (free_of_takeSection isComponents
    (free_of_takeSection isActions (free_of_takeSection isQueries (free_of_takeSection hypernote
      (fun _ _ => List.not_mem_nil) (by simp)) (by simp)) (by simp)) (by simp)) (by simp)
  refine ⟨_, rest, rfl, rfl, rfl, fun member mem => ?_⟩
  obtain ⟨kept, unnamed⟩ := free_of_foldl_takeIdentity isNamed member mem
  rw [Object.erase_eq_without, Object.mem_without_iff, List.mem_singleton] at kept
  have free := free member kept.1
  rw [List.mem_append, not_or]
  refine ⟨?_, unnamed⟩
  simp only [sectionNames, List.mem_cons, List.not_mem_nil, or_false, not_or] at free ⊢
  exact ⟨free.2.2.2.2, free.2.2.2.1, free.2.2.1, free.2.1, free.1, kept.2⟩

/-! ## Placing keys -/

theorem place_of_isShorthand (m : Meta) {member : String × Json}
    (shorthand : isShorthand member.1 = true) :
    (m.place member).extra = m.extra ∧ (m.place member).dependencies = m.dependencies := by
  rw [isShorthand] at shorthand
  rw [place]
  split <;> simp_all

theorem place_of_not_isShorthand (m : Meta) {member : String × Json}
    (plain : isShorthand member.1 = false) :
    m.place member = { m with extra := m.extra.insert member.1 member.2 } := by
  rw [isShorthand] at plain
  rw [place]
  split <;> simp_all

/-- A key without the name of a section or of the identity keeps metadata sorted. -/
theorem Sorted.place {m : Meta} (sorted : m.Sorted) {member : String × Json}
    (free : member.1 ∉ sectionNames ++ identityKeys) : (m.place member).Sorted := by
  cases shorthand : isShorthand member.1 with
  | true =>
      obtain ⟨extra, dependencies⟩ := place_of_isShorthand m shorthand
      refine ⟨?_, ?_, ?_, dependencies.trans sorted.dependencies⟩
      · rw [extra]
        exact sorted.ascending
      · rw [extra]
        exact sorted.named
      · rw [extra]
        exact sorted.shorthands
  | false =>
      rw [place_of_not_isShorthand m shorthand]
      refine ⟨Object.ascending_insert sorted.ascending _ _, ?_, ?_, sorted.dependencies⟩
      · intro other mem
        rcases Object.mem_of_mem_insert mem with rfl | old
        · exact free
        · exact sorted.named other old
      · intro other mem
        rcases Object.mem_of_mem_insert mem with rfl | old
        · exact shorthand
        · exact sorted.shorthands other old

theorem Sorted.foldl_place {m : Meta} (sorted : m.Sorted) {members : Object}
    (free : ∀ member ∈ members, member.1 ∉ sectionNames ++ identityKeys) :
    (members.foldl Meta.place m).Sorted := by
  induction members generalizing m with
  | nil => exact sorted
  | cons member more ih =>
      rw [List.forall_mem_cons] at free
      exact ih (sorted.place free.1) free.2

/-- Nothing that remains of raw metadata could be taken out of it once more. -/
theorem sorted_ofRaw (raw : Object) : (ofRaw raw).Sorted := by
  obtain ⟨m, rest, result, extra, dependencies, free⟩ := exists_ofRaw_eq_foldl_place raw
  rw [result]
  refine Sorted.foldl_place ⟨?_, ?_, ?_, dependencies⟩ free
  · rw [extra]
    exact Object.ascending_nil
  · rw [extra]
    exact List.forall_mem_nil _
  · rw [extra]
    exact List.forall_mem_nil _

theorem sorted_ofFrontmatter {frontmatter : Option (List Char)} {metadata : Meta}
    (read : ofFrontmatter frontmatter = .ok metadata) : metadata.Sorted := by
  cases frontmatter with
  | none =>
      cases read
      exact sorted_ofRaw []
  | some yaml =>
      rw [ofFrontmatter] at read
      cases parsed : Frontmatter.parse yaml with
      | error error =>
          rw [parsed] at read
          cases read
      | ok raw =>
          rw [parsed] at read
          cases read
          exact sorted_ofRaw raw

/-- Keys that are no shorthands all remain. -/
theorem foldl_place_of_not_isShorthand {members : Object}
    (plain : ∀ member ∈ members, isShorthand member.1 = false) (m : Meta) :
    members.foldl place m =
      { m with
        extra := members.foldl (fun object (key, value) => object.insert key value) m.extra } := by
  induction members generalizing m with
  | nil => rfl
  | cons member more ih =>
      rw [List.forall_mem_cons] at plain
      rw [List.foldl_cons, ih plain.2, place_of_not_isShorthand m plain.1, List.foldl_cons]

/-! ## The written mapping -/

/-- The sections of metadata that its source has, under their names. -/
def namedSections (m : Meta) : List (String × Object) :=
  [("hypernote", m.identity), ("queries", m.queries), ("actions", m.actions),
    ("components", m.components), ("events", m.events)]

def writtenSections (m : Meta) : List (String × Json) :=
  (m.namedSections.filter fun (_, members) => !members.isEmpty).map fun (name, members) =>
    (name, .obj members)

theorem mem_writtenSections_iff {m : Meta} {name : String} {value : Json} :
    (name, value) ∈ m.writtenSections ↔
      ∃ members, (name, members) ∈ m.namedSections ∧ members ≠ [] ∧ value = .obj members := by
  simp only [writtenSections, List.mem_map, List.mem_filter, Prod.mk.injEq, Prod.exists,
    Bool.not_eq_eq_eq_not, Bool.not_true, List.isEmpty_eq_false_iff]
  constructor
  · rintro ⟨_, members, ⟨mem, filled⟩, rfl, rfl⟩
    exact ⟨members, mem, filled, rfl⟩
  · rintro ⟨members, mem, filled, rfl⟩
    exact ⟨name, members, ⟨mem, filled⟩, rfl, rfl⟩

theorem mem_sectionNames_of_mem_writtenSections {m : Meta} {member : String × Json}
    (mem : member ∈ m.writtenSections) : member.1 ∈ sectionNames := by
  obtain ⟨members, named, -, -⟩ := mem_writtenSections_iff.1 mem
  have name := List.mem_map_of_mem (f := (·.1)) named
  simp only [namedSections, List.map_cons, List.map_nil, List.mem_cons, List.not_mem_nil,
    or_false] at name
  simp only [sectionNames, List.mem_cons, List.not_mem_nil, or_false]
  tauto

/-- A section is found under its name unless it is empty. -/
theorem get?_writtenSections {m : Meta} {name : String} {members : Object}
    (named : (name, members) ∈ m.namedSections) :
    Object.get? m.writtenSections.reverse name =
      if members = [] then none else some (.obj members) := by
  have distinct : (m.namedSections.map (·.1)).Nodup := by simp [namedSections]
  cases found : Object.get? m.writtenSections.reverse name with
  | none =>
      have absent := Object.get?_eq_none_iff.1 found
      rw [if_pos]
      by_contra filled
      have mem := mem_writtenSections_iff.2 ⟨members, named, filled, rfl⟩
      exact absent _ (List.mem_reverse.2 mem) rfl
  | some value =>
      have mem := List.mem_reverse.1 (Object.mem_of_get? found)
      obtain ⟨others, alsoNamed, filled, rfl⟩ := mem_writtenSections_iff.1 mem
      have same := List.inj_on_of_nodup_map distinct alsoNamed named rfl
      rw [Prod.mk.injEq] at same
      rw [← same.2, if_neg filled]

/-- Members under keys that are not there yet are put at the end. -/
theorem foldl_replace_of_ascending {members extra : List (String × Json)}
    (ascending : Object.Ascending extra)
    (fresh : ∀ member ∈ extra, ∀ other ∈ members, other.1 ≠ member.1) :
    extra.foldl (fun members (key, value) => replace members key value) members =
      members ++ extra := by
  induction extra generalizing members with
  | nil => rw [List.foldl_nil, List.append_nil]
  | cons member more ih =>
      rw [Object.ascending_cons_iff] at ascending
      rw [List.forall_mem_cons] at fresh
      obtain ⟨key, value⟩ := member
      have put : replace members key value = members ++ [(key, value)] := by
        rw [replace, if_neg]
        rw [List.any_eq_true]
        rintro ⟨other, mem, same⟩
        exact fresh.1 other mem (beq_iff_eq.1 same)
      simp only [List.foldl_cons, put]
      rw [ih ascending.2, List.append_assoc, List.singleton_append]
      intro later mem other old
      rcases List.mem_append.1 old with before | here
      · exact fresh.2 later mem other before
      · rw [List.mem_singleton.1 here]
        exact ne_of_lt (ascending.1 later mem)

theorem Sorted.apart {m : Meta} (sorted : m.Sorted) :
    ∀ member ∈ m.extra, member.1 ∉ sectionNames :=
  fun member mem taken => sorted.named member mem (List.mem_append_left _ taken)

/-- No other key is written in the place of a section. -/
theorem Sorted.toMapping_eq {m : Meta} (sorted : m.Sorted) :
    m.toMapping = m.writtenSections ++ m.extra := by
  refine foldl_replace_of_ascending sorted.ascending fun member mem other written same => ?_
  exact sorted.apart member mem (same ▸ mem_sectionNames_of_mem_writtenSections written)

/-! ## Sorting once more -/

/-- What is under the name of a section is taken, also when nothing is. -/
theorem takeSection_without {raw members : Object} {names : List String} {key : String}
    (found : raw.get? key = if members = [] then none else some (.obj members))
    (other : key ∉ names) :
    takeSection (raw.without names) key = (members, raw.without (names ++ [key])) := by
  rw [takeSection, Object.get?_without, if_neg other, found, ← Object.without_without]
  by_cases empty : members = []
  · rw [if_pos empty, Object.get?_eq_none_iff] at found
    have kept : (raw.without names).without [key] = raw.without names := by
      refine Object.without_eq_self fun member mem => ?_
      rw [List.mem_singleton]
      exact found member (Object.mem_without_iff.1 mem).1
    rw [if_pos empty, kept, empty]
  · rw [if_neg empty, Object.erase_eq_without]

theorem foldl_takeIdentity_of_free {keys : List String} {identity rest : Object}
    (free : ∀ member ∈ rest, member.1 ∉ keys) :
    keys.foldl takeIdentity (identity, rest) = (identity, rest) := by
  induction keys with
  | nil => rfl
  | cons key more ih =>
      have none : rest.get? key = none :=
        Object.get?_eq_none_iff.2 fun member mem same =>
          free member mem (same ▸ List.mem_cons_self)
      rw [List.foldl_cons, takeIdentity, none]
      exact ih fun member mem taken => free member mem (List.mem_cons_of_mem _ taken)

/-- Sorted metadata is what its mapping is sorted into. -/
theorem Sorted.ofRaw_ofList_toMapping {m : Meta} (sorted : m.Sorted) :
    ofRaw (Object.ofList m.toMapping) = m := by
  rw [sorted.toMapping_eq]
  generalize collected : Object.ofList (m.writtenSections ++ m.extra) = raw
  have take {names : List String} {name : String} {members : Object}
      (named : (name, members) ∈ m.namedSections) (isName : name ∈ sectionNames)
      (other : name ∉ names) :
      takeSection (raw.without names) name = (members, raw.without (names ++ [name])) := by
    refine takeSection_without ?_ other
    rw [← collected, Object.get?_ofList_append, get?_writtenSections named]
    exact fun member mem same => sorted.apart member mem (same ▸ isName)
  -- each section is taken from what the ones before it leave, an empty one as one that is missing
  have hypernote : takeSection raw "hypernote" = (m.identity, raw.without ["hypernote"]) := by
    have taken : takeSection (raw.without []) "hypernote" = (m.identity, _) :=
      take (by simp [namedSections]) (by decide) (by decide)
    rwa [Object.without_eq_self fun _ _ => List.not_mem_nil] at taken
  have queries : takeSection (raw.without ["hypernote"]) "queries" = (m.queries, _) :=
    take (by simp [namedSections]) (by decide) (by decide)
  have actions : takeSection (raw.without ["hypernote", "queries"]) "actions" = (m.actions, _) :=
    take (by simp [namedSections]) (by decide) (by decide)
  have components : takeSection (raw.without ["hypernote", "queries", "actions"]) "components" =
      (m.components, _) := take (by simp [namedSections]) (by decide) (by decide)
  have events : takeSection (raw.without ["hypernote", "queries", "actions", "components"])
      "events" = (m.events, _) := take (by simp [namedSections]) (by decide) (by decide)
  have remains : (raw.without ["hypernote", "queries", "actions", "components", "events"]).erase
      "dependencies" = m.extra := by
    rw [Object.erase_eq_without, Object.without_without, ← collected]
    exact Object.without_ofList_append sorted.ascending sorted.apart fun _ =>
      mem_sectionNames_of_mem_writtenSections
  -- no key that remains is taken into the identity, and none is placed in a section
  have identity : identityKeys.foldl takeIdentity (m.identity, m.extra) = (m.identity, m.extra) :=
    foldl_takeIdentity_of_free fun member mem taken =>
      sorted.named member mem (List.mem_append_right _ taken)
  have placed := Object.ofList_of_ascending sorted.ascending
  rw [Object.ofList] at placed
  rw [ofRaw]
  simp only [hypernote, queries, actions, components, events, List.cons_append, List.nil_append,
    remains, identity]
  rw [foldl_place_of_not_isShorthand sorted.shorthands]
  simp only [placed]
  rw [← sorted.dependencies]

/--
The normal form of metadata.  Whatever raw metadata is sorted, the mapping that is written
of the outcome has the sections that are not empty next to all other keys, so that no key
takes the place of a section, and is sorted into the same metadata again; of the other keys
none has the name of a section, `dependencies` among them, none is a key of the identity, and
none begins with a sigil.
-/
theorem ofRaw_toMapping (raw : Object) :
    let m := ofRaw raw
    ofRaw (Object.ofList m.toMapping) = m ∧
      m.toMapping = m.writtenSections ++ m.extra ∧
      ∀ member ∈ m.extra, member.1 ∉ sectionNames ∧ member.1 ∉ identityKeys ∧
        isShorthand member.1 = false := by
  intro m
  have sorted : m.Sorted := sorted_ofRaw raw
  refine ⟨sorted.ofRaw_ofList_toMapping, sorted.toMapping_eq, fun member mem => ?_⟩
  have free := sorted.named member mem
  rw [List.mem_append, not_or] at free
  exact ⟨free.1, free.2, sorted.shorthands member mem⟩

/-- A section that is no mapping is renamed, and what is in a section already stays. -/
example :
    ofRaw [("#c", .bool true), ("$q", .null), ("events", .str "e"), ("name", .str "n"),
        ("queries", .obj [("q", .str "old")])] =
      { identity := [("name", .str "n")], queries := [("q", .str "old")],
        components := [("c", .bool true)], extra := [("events_invalid", .str "e")] } := by
  decide +kernel

end Meta

end UiMarkdown
