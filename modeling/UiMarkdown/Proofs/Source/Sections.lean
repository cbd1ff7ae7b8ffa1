import UiMarkdown.Proofs.Source.Metadata

/-!
# Where the keys of metadata go

Raw metadata is taken apart in stages: the sections, the keys of the identity, the
shorthands.  What a stage leaves is known key by key, so the place of every key is known
in the end.  Nothing is lost but where a section is no mapping: it is kept under a name
made from its own, and a key that has this name already gives way to it.
-/

namespace UiMarkdown

namespace Meta

def takenNames : List String := ["hypernote", "queries", "actions", "components", "events"]

/-- The members of a section in raw metadata; one that is no mapping has none. -/
def givenSection (raw : Object) (name : String) : Object :=
  match raw.get? name with
  | some (.obj members) => members
  | _ => []

/-- A value that is no section, since it is neither a mapping nor null. -/
def misfit? : Option Json → Option Json
  | some (.obj _) | some .null => none
  | value => value

/-- The value of the section among some that is kept under a key because it is no mapping. -/
def setAside? (raw : Object) (names : List String) (key : String) : Option Json :=
  names.findSome? fun name => if key = name ++ "_invalid" then misfit? (raw.get? name) else none

/-! ## Sections set aside -/

/-- A key tells the section that is kept under it. -/
theorem setAside?_eq_some_iff {raw : Object} {names : List String} {key : String} {value : Json} :
    setAside? raw names key = some value ↔
      ∃ name ∈ names, key = name ++ "_invalid" ∧ misfit? (raw.get? name) = some value := by
  have here {value : Json} (found : setAside? raw names key = some value) :
      ∃ name ∈ names, key = name ++ "_invalid" ∧ misfit? (raw.get? name) = some value := by
    obtain ⟨name, mem, kept⟩ := List.exists_of_findSome?_eq_some found
    split at kept
    · rename_i isKey
      exact ⟨name, mem, isKey, kept⟩
    · cases kept
  constructor
  · exact here
  · rintro ⟨name, mem, rfl, kept⟩
    cases found : setAside? raw names (name ++ "_invalid") with
    | none =>
        have nothing := List.findSome?_eq_none_iff.1 found name mem
        rw [if_pos rfl, kept] at nothing
        cases nothing
    | some other =>
        obtain ⟨name', -, same, kept'⟩ := here found
        rw [String.append_left_inj] at same
        rw [← same, kept] at kept'
        exact kept'.symm

theorem setAside?_eq_none {raw : Object} {names : List String} {key : String}
    (free : ∀ name ∈ names, key ≠ name ++ "_invalid") : setAside? raw names key = none :=
  List.findSome?_eq_none_iff.2 fun name mem => if_neg (free name mem)

/-- It does not matter in which order sections are set aside. -/
theorem setAside?_congr {raw : Object} {a b : List String} (same : ∀ name, name ∈ a ↔ name ∈ b)
    (key : String) : setAside? raw a key = setAside? raw b key := by
  apply Option.ext
  intro value
  simp only [setAside?_eq_some_iff, same]

/-! ## What is left -/

/--
What is left of raw metadata when some sections have been taken: every other key with its
value, or with that of a section which was set aside under it.
-/
structure Remains (raw : Object) (names : List String) (rest : Object) : Prop where
  ascending : Object.Ascending rest
  get? : ∀ key, rest.get? key =
    if key ∈ names then none else (setAside? raw names key).or (raw.get? key)

theorem Remains.refl {raw : Object} (ascending : Object.Ascending raw) : Remains raw [] raw where
  ascending := ascending
  get? _ := rfl

/-- A section is taken with its members, and one that is no mapping is set aside. -/
theorem takeSection_eq (raw : Object) (name : String) :
    takeSection raw name = (givenSection raw name,
      match misfit? (raw.get? name) with
      | some value => (raw.erase name).insert (name ++ "_invalid") value
      | none => raw.erase name) := by
  unfold takeSection givenSection
  cases found : raw.get? name with
  | none =>
      rw [Object.erase_eq_self found]
      rfl
  | some value => cases value <;> rfl

/-- Taking one more section leaves the other keys as they are. -/
theorem Remains.take {raw rest : Object} {names : List String} (remains : Remains raw names rest)
    (name : String) (new : name ∉ names)
    (apart : ∀ other ∈ names, name ≠ other ++ "_invalid")
    (aside : name ++ "_invalid" ∉ name :: names) :
    (takeSection rest name).1 = givenSection raw name ∧
      Remains raw (name :: names) (takeSection rest name).2 := by
  have same : rest.get? name = raw.get? name := by
    rw [remains.get?, if_neg new, setAside?_eq_none apart, Option.none_or]
  rw [takeSection_eq, same]
  refine ⟨by rw [givenSection, givenSection, same], ?_, fun key => ?_⟩
  · have erased : Object.Ascending (rest.erase name) := by
      rw [Object.erase_eq_without]
      exact Object.ascending_without remains.ascending [name]
    cases misfit? (raw.get? name) with
    | none => exact erased
    | some value => exact Object.ascending_insert erased _ value
  · have erased : (rest.erase name).get? key =
        if key ∈ name :: names then none else (setAside? raw names key).or (raw.get? key) := by
      rw [Object.get?_erase, remains.get?]
      by_cases isName : key = name <;> simp [isName]
    have later : setAside? raw (name :: names) key =
        (if key = name ++ "_invalid" then misfit? (raw.get? name) else none).or
          (setAside? raw names key) := by
      unfold setAside?
      rw [List.findSome?_cons]
      split <;> simp_all
    rw [later]
    cases misfit : misfit? (raw.get? name) with
    | none =>
        dsimp only
        rw [erased, ite_self, Option.none_or]
    | some value =>
        dsimp only
        rw [Object.get?_insert, erased]
        by_cases isAside : key = name ++ "_invalid"
        · rw [if_pos isAside, if_pos isAside, if_neg (isAside ▸ aside)]
          rfl
        · rw [if_neg isAside, if_neg isAside, Option.none_or]

/-- The keys of the identity are taken from what is left, and come after those that it has. -/
theorem foldl_takeIdentity (keys : List String) (identity rest : Object) :
    (keys.foldl takeIdentity (identity, rest)).2 = rest.without keys ∧
      ∀ key, (keys.foldl takeIdentity (identity, rest)).1.get? key =
        (identity.get? key).or (if key ∈ keys then rest.get? key else none) := by
  induction keys generalizing identity rest with
  | nil =>
      refine ⟨(Object.without_eq_self fun _ _ => List.not_mem_nil).symm, fun key => ?_⟩
      rw [if_neg List.not_mem_nil, Option.or_none]
      rfl
  | cons first more ih =>
      rw [List.foldl_cons]
      cases found : rest.get? first with
      | none =>
          have stays : takeIdentity (identity, rest) first = (identity, rest) := by
            rw [takeIdentity, found]
          obtain ⟨remains, moved⟩ := ih identity rest
          rw [stays]
          refine ⟨?_, fun key => ?_⟩
          · rw [remains, ← List.singleton_append, ← Object.without_without,
              ← Object.erase_eq_without, Object.erase_eq_self found]
          · rw [moved]
            by_cases isFirst : key = first <;> simp [isFirst, found]
      | some value =>
          have takes : takeIdentity (identity, rest) first =
              (identity.insertNew first value, rest.erase first) := by
            rw [takeIdentity, found]
          obtain ⟨remains, moved⟩ := ih (identity.insertNew first value) (rest.erase first)
          rw [takes]
          refine ⟨?_, fun key => ?_⟩
          · rw [remains, Object.erase_eq_without, Object.without_without, List.singleton_append]
          · rw [moved, Object.get?_insertNew, Object.get?_erase]
            by_cases isFirst : key = first <;> simp [isFirst, found]

/-! ## Shorthands -/

def shorthand (sigil : Char) (name : String) : String :=
  String.ofList (sigil :: name.toList)

theorem eq_shorthand_iff {key : String} {sigil : Char} {name : String} :
    key = shorthand sigil name ↔ key.toList = sigil :: name.toList := by
  rw [shorthand, String.ext_iff, String.toList_ofList]

/-- A shorthand comes after what its section has already. -/
theorem get?_place (m : Meta) (member : String × Json) (name : String) :
    (m.place member).queries.get? name =
        (m.queries.get? name).or (if member.1 = shorthand '$' name then some member.2 else none) ∧
      (m.place member).actions.get? name =
        (m.actions.get? name).or (if member.1 = shorthand '@' name then some member.2 else none) ∧
      (m.place member).components.get? name =
        (m.components.get? name).or
          (if member.1 = shorthand '#' name then some member.2 else none) := by
  simp only [eq_shorthand_iff]
  unfold place
  dsimp only
  split
  · rename_i inner chars
    simp [chars, Object.get?_insertNew, String.ext_iff, eq_comm]
  · rename_i inner chars
    simp [chars, Object.get?_insertNew, String.ext_iff, eq_comm]
  · rename_i inner chars
    simp [chars, Object.get?_insertNew, String.ext_iff, eq_comm]
  · rename_i noQuery noAction noComponent
    rw [if_neg (noQuery _), if_neg (noAction _), if_neg (noComponent _)]
    simp only [Option.or_none, and_self]

/-- The shorthands of what is left come after what their section has already. -/
theorem get?_foldl_place {part : Meta → Object} {sigil : Char}
    (step : ∀ m member name, (part (place m member)).get? name =
      ((part m).get? name).or (if member.1 = shorthand sigil name then some member.2 else none))
    (rest : Object) (m : Meta) (name : String) :
    (part (rest.foldl place m)).get? name =
      ((part m).get? name).or (rest.get? (shorthand sigil name)) := by
  induction rest generalizing m with
  | nil => rw [List.foldl_nil, Object.get?_nil, Option.or_none]
  | cons member more ih =>
      rw [List.foldl_cons, ih, step, Object.get?_cons, Option.or_assoc]
      by_cases isHere : member.1 = shorthand sigil name
      · rw [if_pos isHere, if_pos isHere.symm, Option.some_or]
      · rw [if_neg isHere, if_neg (Ne.symm isHere), Option.none_or]

/-- All other keys are placed as they are, and no other is placed with them. -/
theorem get?_extra_foldl_place {rest : Object} (ascending : Object.Ascending rest) (m : Meta)
    (key : String) :
    (rest.foldl place m).extra.get? key =
      ((if isShorthand key = true then none else rest.get? key)).or (m.extra.get? key) := by
  rw [← Object.get?_reverse ascending]
  clear ascending
  induction rest generalizing m with
  | nil => simp [Object.get?_nil]
  | cons member more ih =>
      rw [List.foldl_cons, ih, List.reverse_cons, Object.get?_append]
      cases shorthand : isShorthand member.1 with
      | true =>
          rw [(place_of_isShorthand m shorthand).1]
          by_cases same : key = member.1
          · simp [same, shorthand]
          · simp [same, Object.get?_cons, Object.get?_nil]
      | false =>
          rw [place_of_not_isShorthand m shorthand, Object.get?_insert]
          by_cases same : key = member.1
          · simp [same, shorthand, Object.get?_cons]
          · simp [same, Object.get?_cons, Object.get?_nil]

/-- Placing keys leaves the identity and the events alone. -/
theorem foldl_place_identity (rest : Object) (m : Meta) :
    (rest.foldl place m).identity = m.identity ∧ (rest.foldl place m).events = m.events := by
  induction rest generalizing m with
  | nil => exact ⟨rfl, rfl⟩
  | cons member more ih =>
      have here : (m.place member).identity = m.identity ∧ (m.place member).events = m.events := by
        unfold place
        dsimp only
        split <;> exact ⟨rfl, rfl⟩
      rw [List.foldl_cons, (ih _).1, (ih _).2]
      exact here

theorem isShorthand_shorthand {sigil : Char} (isSigil : sigil ∈ ['$', '@', '#']) (name : String) :
    isShorthand (shorthand sigil name) = true := by
  rw [isShorthand, eq_shorthand_iff.1 rfl]
  simp only [List.mem_cons, List.not_mem_nil, or_false] at isSigil
  rcases isSigil with rfl | rfl | rfl <;> rfl

/-- No shorthand has the name of a section or of the identity, nor is a section set aside under
one. -/
theorem free_of_isShorthand (raw : Object) {key : String} (sigil : isShorthand key = true) :
    key ∉ sectionNames ++ identityKeys ∧ setAside? raw takenNames key = none := by
  have plain : ∀ name ∈ sectionNames ++ identityKeys ++ takenNames.map (· ++ "_invalid"),
      isShorthand name = false := by decide
  constructor
  · intro mem
    rw [plain key (List.mem_append_left _ mem)] at sigil
    cases sigil
  · refine setAside?_eq_none fun name mem same => ?_
    rw [plain key (List.mem_append_right _ (List.mem_map.2 ⟨name, mem, same.symm⟩))] at sigil
    cases sigil

/-! ## Every key in its place -/

/-- The sections are taken one after the other. -/
theorem exists_remains {raw : Object} (ascending : Object.Ascending raw) :
    ∃ rest, Remains raw takenNames rest ∧
      let (identity, others) := identityKeys.foldl takeIdentity
        (givenSection raw "hypernote", rest.erase "dependencies")
      ofRaw raw = others.foldl place
        { identity
          queries := givenSection raw "queries"
          actions := givenSection raw "actions"
          components := givenSection raw "components"
          events := givenSection raw "events" } := by
  have start : Remains raw [] raw := .refl ascending
  obtain ⟨hypernote, left⟩ := start.take "hypernote" (by decide) (by decide) (by decide)
  obtain ⟨queries, left⟩ := left.take "queries" (by decide) (by decide) (by decide)
  obtain ⟨actions, left⟩ := left.take "actions" (by decide) (by decide) (by decide)
  obtain ⟨components, left⟩ := left.take "components" (by decide) (by decide) (by decide)
  obtain ⟨events, left⟩ := left.take "events" (by decide) (by decide) (by decide)
  refine ⟨_, ⟨left.ascending, fun key => ?_⟩, ?_⟩
  · have same : ∀ name, name ∈ takenNames.reverse ↔ name ∈ takenNames := fun _ => List.mem_reverse
    rw [left.get?, ← setAside?_congr same key]
    simp only [← same key]
    rfl
  · rw [← hypernote, ← queries, ← actions, ← components, ← events]
    rfl

/-- The identity takes its keys, and the keys that are left are placed one by one. -/
theorem exists_ofRaw_eq_foldl {raw : Object} (ascending : Object.Ascending raw) :
    ∃ identity others : Object, Object.Ascending others ∧
      (∀ key, others.get? key = if key ∈ sectionNames ++ identityKeys then none
        else (setAside? raw takenNames key).or (raw.get? key)) ∧
      (∀ key, identity.get? key = ((givenSection raw "hypernote").get? key).or
        (if key ∈ identityKeys then raw.get? key else none)) ∧
      ofRaw raw = others.foldl place
        { identity
          queries := givenSection raw "queries"
          actions := givenSection raw "actions"
          components := givenSection raw "components"
          events := givenSection raw "events" } := by
  obtain ⟨rest, remains, placed⟩ := exists_remains ascending
  obtain ⟨others, identity⟩ :=
    foldl_takeIdentity identityKeys (givenSection raw "hypernote") (rest.erase "dependencies")
  generalize identityKeys.foldl takeIdentity _ = state at others identity placed
  refine ⟨state.1, state.2, ?_, fun key => ?_, fun key => ?_, placed⟩
  · rw [others, Object.erase_eq_without, Object.without_without]
    exact Object.ascending_without remains.ascending _
  · have split : sectionNames = takenNames ++ ["dependencies"] := rfl
    rw [others, Object.get?_without, Object.get?_erase, remains.get?, split]
    by_cases isIdentity : key ∈ identityKeys
    · simp [isIdentity]
    · by_cases isDependencies : key = "dependencies" <;> simp [isIdentity, isDependencies]
  · have apart : ∀ key ∈ identityKeys, key ≠ "dependencies" ∧ key ∉ takenNames ∧
        ∀ name ∈ takenNames, key ≠ name ++ "_invalid" := by decide
    rw [identity]
    by_cases isIdentity : key ∈ identityKeys
    · obtain ⟨other, free, unset⟩ := apart key isIdentity
      rw [if_pos isIdentity, if_pos isIdentity, Object.get?_erase, if_neg other, remains.get?,
        if_neg free, setAside?_eq_none unset, Option.none_or]
    · rw [if_neg isIdentity, if_neg isIdentity]

/--
Where every key of metadata goes.  A key without a meaning of its own stays as it is, unless
a section that is no mapping is set aside under it; the members of a section that is a mapping
stay in it; and a key of the identity and a shorthand, stripped of its sigil, are found in
their section unless the section has that name already.
-/
theorem get?_ofRaw {raw : Object} (ascending : Object.Ascending raw) (key : String) :
    let m := ofRaw raw
    m.extra.get? key =
        (if key ∈ sectionNames ++ identityKeys ∨ isShorthand key = true then none
        else (setAside? raw takenNames key).or (raw.get? key)) ∧
      m.identity.get? key = ((givenSection raw "hypernote").get? key).or
        (if key ∈ identityKeys then raw.get? key else none) ∧
      m.queries.get? key =
        ((givenSection raw "queries").get? key).or (raw.get? (shorthand '$' key)) ∧
      m.actions.get? key =
        ((givenSection raw "actions").get? key).or (raw.get? (shorthand '@' key)) ∧
      m.components.get? key =
        ((givenSection raw "components").get? key).or (raw.get? (shorthand '#' key)) ∧
      m.events = givenSection raw "events" := by
  obtain ⟨identity, others, sorted, left, named, placed⟩ := exists_ofRaw_eq_foldl ascending
  have lifted (sigil : Char) (isSigil : sigil ∈ ['$', '@', '#']) :
      others.get? (shorthand sigil key) = raw.get? (shorthand sigil key) := by
    have isShorthand := isShorthand_shorthand isSigil key
    rw [left, if_neg (free_of_isShorthand raw isShorthand).1,
      (free_of_isShorthand raw isShorthand).2, Option.none_or]
  intro m
  dsimp only [m]
  rw [placed]
  refine ⟨?_, ?_, ?_, ?_, ?_, ?_⟩
  · rw [get?_extra_foldl_place sorted, left, Object.get?_nil, Option.or_none]
    by_cases sigil : isShorthand key = true <;> simp [sigil]
  · rw [(foldl_place_identity _ _).1]
    exact named key
  · rw [get?_foldl_place fun m member name => (get?_place m member name).1, lifted '$' (by decide)]
  · rw [get?_foldl_place fun m member name => (get?_place m member name).2.1,
      lifted '@' (by decide)]
  · rw [get?_foldl_place fun m member name => (get?_place m member name).2.2,
      lifted '#' (by decide)]
  · exact (foldl_place_identity _ _).2

/-- The events are no mapping, two names are defined twice, and the sigils are stripped. -/
theorem get?_ofRaw_of_shorthands :
    let raw : Object := [("$feed", .null), ("$new", .bool true), ("dependencies", .str "old"),
      ("events", .str "e"), ("hypernote", .obj [("name", .str "kept")]), ("icon", .str "star"),
      ("name", .str "lost"), ("queries", .obj [("feed", .bool false)]), ("theme", .str "dark")]
    Object.Ascending raw ∧
      (ofRaw raw).extra.get? "theme" = some (.str "dark") ∧
      (ofRaw raw).extra.get? "events_invalid" = some (.str "e") ∧
      (ofRaw raw).identity.get? "name" = some (.str "kept") ∧
      (ofRaw raw).identity.get? "icon" = some (.str "star") ∧
      (ofRaw raw).queries.get? "feed" = some (.bool false) ∧
      (ofRaw raw).queries.get? "new" = some (.bool true) ∧ (ofRaw raw).events = [] := by
  intro raw
  have ascending : Object.Ascending raw := by decide +kernel
  have key (name : String) := get?_ofRaw ascending name
  refine ⟨ascending, (key _).1.trans ?_, (key _).1.trans ?_, (key _).2.1.trans ?_,
    (key _).2.1.trans ?_, (key _).2.2.1.trans ?_, (key _).2.2.1.trans ?_,
    (key "").2.2.2.2.2.trans ?_⟩ <;> decide +kernel

/-- A key gives way to a section that is no mapping and is set aside under it. -/
theorem not_kept_of_misfit :
    let raw : Object := [("queries", .num (.int 5)), ("queries_invalid", .str "mine")]
    Object.Ascending raw ∧ raw.get? "queries_invalid" = some (.str "mine") ∧
      (ofRaw raw).extra.get? "queries_invalid" = some (.num (.int 5)) ∧
      ¬ ∀ raw : Object, Object.Ascending raw → ∀ key value, raw.get? key = some value →
        key ∉ sectionNames ++ identityKeys → isShorthand key = false →
          (ofRaw raw).extra.get? key = some value := by
  intro raw
  have ascending : Object.Ascending raw := by decide +kernel
  have given : raw.get? "queries_invalid" = some (.str "mine") := by decide +kernel
  have replaced : (ofRaw raw).extra.get? "queries_invalid" = some (.num (.int 5)) := by
    decide +kernel
  refine ⟨ascending, given, replaced, fun kept => ?_⟩
  have same := kept raw ascending _ _ given (by decide) (by decide)
  rw [replaced] at same
  cases same

end Meta

end UiMarkdown
