import UiMarkdown.Proofs.Mask.Restored
import UiMarkdown.Yaml.Value

/-!
# Values of Yaml text

The objects of a value that is read are in order, and its texts and keys are
texts of scalars.
-/

namespace UiMarkdown

namespace Yaml

def Event.ScalarsHave (P : List Char → Prop) (events : List Event) : Prop :=
  ∀ properties text plain, Event.scalar properties text plain ∈ events → P text

/-- A value has its objects in order, and its texts and keys have a property. -/
def Made (P : List Char → Prop) (value : Json) : Prop :=
  value.Ordered ∧ ∀ text ∈ Mask.textsOf value, P text

section Made

variable {P : List Char → Prop}

theorem made_str {text : List Char} (has : P text) : Made P (.str (String.ofList text)) := by
  refine ⟨trivial, ?_⟩
  rw [Mask.textsOf, List.forall_mem_singleton, String.toList_ofList]
  exact has

theorem made_null : Made P .null := by
  refine ⟨trivial, ?_⟩
  rw [Mask.textsOf]
  · exact List.forall_mem_nil _
  all_goals simp

theorem made_bool (b : Bool) : Made P (.bool b) := by
  refine ⟨trivial, ?_⟩
  rw [Mask.textsOf]
  · exact List.forall_mem_nil _
  all_goals simp

theorem made_num (n : Number) : Made P (.num n) := by
  refine ⟨trivial, ?_⟩
  rw [Mask.textsOf]
  · exact List.forall_mem_nil _
  all_goals simp

theorem made_arr_nil : Made P (.arr []) := by
  refine ⟨?_, ?_⟩
  · rw [Json.Ordered, Json.OrderedItems]
    trivial
  · rw [Mask.textsOf, Mask.textsOfItems]
    exact List.forall_mem_nil _

theorem made_arr_cons {item : Json} {items : List Json} (one : Made P item)
    (more : Made P (.arr items)) : Made P (.arr (item :: items)) := by
  obtain ⟨ordered, texts⟩ := one
  obtain ⟨orderedMore, textsMore⟩ := more
  rw [Json.Ordered] at orderedMore
  rw [Mask.textsOf] at textsMore
  refine ⟨?_, ?_⟩
  · rw [Json.Ordered, Json.OrderedItems]
    exact ⟨ordered, orderedMore⟩
  · rw [Mask.textsOf, Mask.textsOfItems, List.forall_mem_append]
    exact ⟨texts, textsMore⟩

/-- Members whose values have their objects in order, and whose texts and keys have a property. -/
def MadeMembers (P : List Char → Prop) (members : List (String × Json)) : Prop :=
  Json.OrderedMembers members ∧ ∀ text ∈ Mask.textsOfMembers members, P text

theorem madeMembers_nil : MadeMembers P [] := by
  refine ⟨?_, ?_⟩
  · rw [Json.OrderedMembers]
    trivial
  · rw [Mask.textsOfMembers]
    exact List.forall_mem_nil _

theorem madeMembers_cons {key : String} {value : Json} {members : List (String × Json)}
    (has : P key.toList) (one : Made P value) (more : MadeMembers P members) :
    MadeMembers P ((key, value) :: members) := by
  refine ⟨?_, ?_⟩
  · rw [Json.OrderedMembers]
    exact ⟨one.1, more.1⟩
  · rw [Mask.textsOfMembers, List.forall_mem_append, List.forall_mem_cons]
    exact ⟨⟨has, one.2⟩, more.2⟩

/-- Of members with the same key the last one counts, so no text is new. -/
theorem MadeMembers.made_obj {members : List (String × Json)} (made : MadeMembers P members) :
    Made P (.obj (Object.ofList members)) := by
  refine ⟨Json.ordered_ofList made.1, ?_⟩
  rw [Mask.textsOf]
  intro text mem
  exact made.2 text (Mask.mem_textsOfMembers_of_ofList mem)

end Made

namespace Scalar

variable {P : List Char → Prop} {text : List Char} {value : Json}

theorem made_of_integer? {value? : Option Json} (read : integer? text = some value?) :
    ∀ value ∈ value?, Made P value := by
  rw [integer?] at read
  cases number : int? text with
  | none => simp [number] at read
  | some i =>
      simp only [number] at read
      split at read
      · cases read
        rintro value ⟨⟩
        exact made_num _
      · split at read
        · cases read
          rintro value ⟨⟩
        · cases read

theorem made_of_float? (read : float? text = some value) : Made P value := by
  unfold float? at read
  split at read
  · cases read
    exact made_null
  · split at read
    · cases read
    · cases read
    · split at read
      · cases read
        exact made_num _
      · cases read

/-- A plain scalar means its own text or none. -/
theorem made_of_plain? (has : P text) (read : plain? text = some value) : Made P value := by
  rw [plain?] at read
  split at read
  · cases read
    exact made_null
  · split at read
    · cases read
      exact made_bool _
    · split at read
      · rename_i number
        exact made_of_integer? number value read
      · split at read
        · rename_i number
          cases read
          split at number
          · cases number
          · exact made_of_float? number
        · cases read
          exact made_str has

/-- A scalar with a tag means its own text or none. -/
theorem made_of_tagged? {tag : List Char} (has : P text) (read : tagged? tag text = some value) :
    Made P value := by
  simp only [tagged?] at read
  split at read
  · obtain ⟨b, -, rfl⟩ := Option.map_eq_some_iff.1 read
    exact made_bool b
  · split at read
    · obtain ⟨value?, number, found⟩ := Option.bind_eq_some_iff.1 read
      exact made_of_integer? number value found
    · split at read
      · exact made_of_float? read
      · split at read
        · split at read
          · cases read
            exact made_null
          · cases read
        · cases read
          exact made_str has

end Scalar

namespace Graph

variable {P : List Char → Prop} {graph : Graph}

theorem made_of_scalar? {properties : Properties} {text : List Char} {plain : Bool} {value : Json}
    (has : P text) (read : scalar? properties text plain = some value) : Made P value := by
  rw [scalar?] at read
  split at read
  · split at read
    · cases read
    · exact Scalar.made_of_tagged? has read
  · split at read
    · exact Scalar.made_of_plain? has read
    · cases read
      exact made_str has

theorem mem_of_events {position : Nat} {event : Event}
    (found : graph.events[position]? = some event) : event ∈ graph.events.toList := by
  rw [← Array.getElem?_toList] at found
  exact List.mem_of_getElem? found

/-- The key of a member is the text of a scalar. -/
theorem of_key? (scalars : Event.ScalarsHave P graph.events.toList) {jumps position : Nat}
    {key : String} {jumps' : Nat} (read : graph.key? jumps position = some (key, jumps')) :
    P key.toList := by
  rw [key?] at read
  split at read
  · rename_i found
    cases read
    rw [String.toList_ofList]
    exact scalars _ _ _ (mem_of_events found)
  · split at read
    · rename_i found
      obtain ⟨target, -, found⟩ := Option.bind_eq_some_iff.1 found
      split at read
      · cases read
        rw [String.toList_ofList]
        exact scalars _ _ _ (mem_of_events found)
      · cases read
    · cases read
  · cases read

/-- What is read from events with some fuel is made of texts with a property. -/
structure ReadersMake (P : List Char → Prop) (graph : Graph) (fuel : Nat) : Prop where
  node : ∀ depth jumps position value rest,
    graph.node? fuel depth jumps position = some (value, rest) → Made P value
  items : ∀ depth jumps position items rest,
    graph.items? fuel depth jumps position = some (items, rest) → Made P (.arr items)
  members : ∀ depth jumps position members rest,
    graph.members? fuel depth jumps position = some (members, rest) → MadeMembers P members

theorem readersMake_zero : ReadersMake P graph 0 where
  node := fun depth jumps position value rest read => by
    rw [node?] at read
    cases read
  items := fun depth jumps position items rest read => by
    rw [items?] at read
    cases read
  members := fun depth jumps position members rest read => by
    rw [members?] at read
    cases read

namespace ReadersMake

variable {fuel depth jumps position : Nat} {rest : Nat × Nat}

theorem step_node (make : ReadersMake P graph fuel)
    (scalars : Event.ScalarsHave P graph.events.toList) {value : Json}
    (read : graph.node? (fuel + 1) depth jumps position = some (value, rest)) :
    Made P value := by
  rw [node?] at read
  split at read
  · rename_i found
    obtain ⟨value', scalar, same⟩ := Option.map_eq_some_iff.1 read
    cases same
    exact made_of_scalar? (scalars _ _ _ (mem_of_events found)) scalar
  · split at read
    · split at read
      · obtain ⟨⟨value', rest'⟩, inner, same⟩ := Option.map_eq_some_iff.1 read
        cases same
        exact make.node _ _ _ _ _ inner
      · cases read
    · cases read
  · split at read
    · obtain ⟨⟨items, rest'⟩, inner, same⟩ := Option.map_eq_some_iff.1 read
      cases same
      exact make.items _ _ _ _ _ inner
    · cases read
  · split at read
    · obtain ⟨⟨members, rest'⟩, inner, same⟩ := Option.map_eq_some_iff.1 read
      cases same
      exact (make.members _ _ _ _ _ inner).made_obj
    · cases read
  · cases read

theorem step_items (make : ReadersMake P graph fuel) {items : List Json}
    (read : graph.items? (fuel + 1) depth jumps position = some (items, rest)) :
    Made P (.arr items) := by
  rw [items?] at read
  split at read
  · cases read
    exact made_arr_nil
  · split at read
    · rename_i found
      obtain ⟨⟨items', rest'⟩, inner, same⟩ := Option.map_eq_some_iff.1 read
      cases same
      exact made_arr_cons (make.node _ _ _ _ _ found) (make.items _ _ _ _ _ inner)
    · cases read

theorem step_members (make : ReadersMake P graph fuel)
    (scalars : Event.ScalarsHave P graph.events.toList) {members : List (String × Json)}
    (read : graph.members? (fuel + 1) depth jumps position = some (members, rest)) :
    MadeMembers P members := by
  rw [members?] at read
  split at read
  · cases read
    exact madeMembers_nil
  · split at read
    · cases read
    · rename_i key
      split at read
      · rename_i found
        obtain ⟨⟨members', rest'⟩, inner, same⟩ := Option.map_eq_some_iff.1 read
        cases same
        exact madeMembers_cons (of_key? scalars key) (make.node _ _ _ _ _ found)
          (make.members _ _ _ _ _ inner)
      · cases read

end ReadersMake

theorem readersMake (scalars : Event.ScalarsHave P graph.events.toList) (fuel : Nat) :
    ReadersMake P graph fuel := by
  induction fuel with
  | zero => exact readersMake_zero
  | succ fuel ih =>
      exact {
        node := fun _ _ _ _ _ read => ih.step_node scalars read
        items := fun _ _ _ _ _ read => ih.step_items read
        members := fun _ _ _ _ _ read => ih.step_members scalars read }

end Graph

def eventsOf? (s : List Char) : Option (List Event) :=
  (Token.ofText? s).bind Event.ofTokens?

/-- The value of a Yaml text is in order, and its texts and keys are those of scalars. -/
theorem made_of_ofText? {P : List Char → Prop} {s : List Char} {value : Json}
    (scalars : ∀ events ∈ eventsOf? s, Event.ScalarsHave P events)
    (read : ofText? s = some value) : Made P value := by
  rw [ofText?] at read
  obtain ⟨tokens, scanned, read⟩ := Option.bind_eq_some_iff.1 read
  obtain ⟨events, parsed, read⟩ := Option.bind_eq_some_iff.1 read
  have have' := scalars events (by rw [eventsOf?, scanned]; exact parsed)
  split at read
  · cases read
    exact made_null
  · obtain ⟨anchors, -, read⟩ := Option.bind_eq_some_iff.1 read
    obtain ⟨⟨value', rest⟩, found, same⟩ := Option.bind_eq_some_iff.1 read
    cases same
    exact (Graph.readersMake have' _).node _ _ _ _ _ found

end Yaml

end UiMarkdown
