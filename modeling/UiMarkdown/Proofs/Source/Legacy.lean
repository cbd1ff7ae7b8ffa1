import UiMarkdown.Proofs.Json.Path
import UiMarkdown.Source.Legacy

/-!
# The first legacy reference

Whether a text with a sigil may stand somewhere in a query depends on the whole path that
leads to it from the query: the first of its members that is the field of a pipe decides.
Queries are accepted exactly if every such text may stand where it does; of the others the
one with the first path is reported, with its path and the way to write it now.
-/

namespace UiMarkdown

namespace Json

/-- A step as it is written behind the place that it is made from. -/
def Step.spell : Step → String
  | .item position => "[" ++ String.ofList (Nat.toDigits 10 position) ++ "]"
  | .member key => "." ++ key

def spell (path : List Step) : String :=
  path.foldr (fun step text => step.spell ++ text) ""

theorem spell_cons (step : Step) (path : List Step) :
    spell (step :: path) = step.spell ++ spell path :=
  rfl

/-- Of several entries in the order of their paths the first that satisfies `p` is found. -/
theorem earlier_of_find?_eq_some {entries : List (List Step × String)}
    {p : List Step × String → Bool} {first other : List Step × String} (sorted : entries.Pairwise Earlier)
    (found : entries.find? p = some first) (mem : other ∈ entries) (holds : p other = true) :
    other = first ∨ Earlier first other := by
  obtain ⟨-, before, after, rfl, skipped⟩ := List.find?_eq_some_iff_append.1 found
  rw [List.mem_append, List.mem_cons] at mem
  rcases mem with early | same | late
  · have fails := skipped other early
    rw [holds] at fails
    cases fails
  · exact .inl same
  · rw [List.pairwise_append, List.pairwise_cons] at sorted
    exact .inr (sorted.2.1.1 other late)

end Json

namespace Legacy

open Json (Step spell)

/-! ## Fields -/

/-- The field that decides on a text: the outermost member of a path that is the field of a pipe. -/
def governing (path : List Step) : Option String :=
  path.findSome? fun
    | .member key => if key ∈ ["from", "with", "authors"] then some key else none
    | .item _ => none

/-- Whether a text with a sigil may stand at the end of a path from a query. -/
def Tolerated (authors : List String) (path : List Step) (s : String) : Prop :=
  ((governing path = some "from" ∨ governing path = some "with") ∧
      "$item.".toList <+: s.toList) ∨
    (governing path = some "authors" ∧ ∃ author ∈ authors, author.toList <+: s.toList)

def fieldAt (field : Option String) : List Step → Option String
  | [] => field
  | .item _ :: path => fieldAt field path
  | .member key :: path => fieldAt (some (innerField field key)) path

def pipe? (field : Option String) : Option String :=
  field.filter fun name => name ∈ pipeFields

theorem pipe?_innerField (field : Option String) (key : String) :
    pipe? (some (innerField field key)) =
      (pipe? field).or (if key ∈ pipeFields then some key else none) := by
  cases field with
  | none => simp [pipe?, innerField, Option.filter_some]
  | some name =>
      by_cases isPipe : name ∈ pipeFields <;> simp [pipe?, innerField, isPipe, Option.filter_some]

/-- Once a path enters the field of a pipe, it stays there. -/
theorem pipe?_fieldAt (field : Option String) (path : List Step) :
    pipe? (fieldAt field path) = (pipe? field).or (governing path) := by
  induction path generalizing field with
  | nil => rw [fieldAt, governing, List.findSome?_nil, Option.or_none]
  | cons step path ih =>
      rw [governing, List.findSome?_cons]
      cases step with
      | item _ => rw [fieldAt, ih, governing]
      | member key =>
          rw [fieldAt, ih, pipe?_innerField, Option.or_assoc, pipeFields]
          dsimp only
          split <;> rfl

/-- What may stand in a field depends only on the field of a pipe that it is. -/
theorem isAllowed_pipe? (authors : List String) (field : Option String) (s : List Char) :
    isAllowed authors (pipe? field) s = isAllowed authors field s := by
  cases field with
  | none => rfl
  | some name =>
      by_cases isPipe : name ∈ pipeFields
      · rw [pipe?, Option.filter_some, if_pos (decide_eq_true isPipe)]
      · rw [pipe?, Option.filter_some, if_neg (by simpa using isPipe)]
        simp only [pipeFields, List.mem_cons, List.not_mem_nil, or_false, not_or] at isPipe
        simp [isAllowed, isPipe]

theorem isAllowed_fieldAt_iff {authors : List String} {path : List Step} {s : String} :
    isAllowed authors (fieldAt none path) s.toList = true ↔ Tolerated authors path s := by
  rw [← isAllowed_pipe?, pipe?_fieldAt, show pipe? none = none from rfl, Option.none_or, Tolerated]
  cases governing path with
  | none => simp [isAllowed]
  | some name =>
      by_cases isPipe : name = "from" ∨ name = "with"
      · rcases isPipe with rfl | rfl <;> simp [isAllowed]
      · by_cases isAuthors : name = "authors"
        · subst isAuthors
          simp [isAllowed]
        · simp [isAllowed, isPipe, isAuthors]

/-! ## The first text that is refused -/

/-- Whether a text at the end of a path from a place in a field is refused. -/
def refuses (authors : List String) (field : Option String) (entry : List Step × String) : Bool :=
  entry.2.toList.head? == some '$' && !isAllowed authors (fieldAt field entry.1) entry.2.toList

def errorAt (place : String) (entry : List Step × String) : CompileError :=
  .ofLegacy (place ++ spell entry.1) entry.2

/-- The first refused text below a step. -/
theorem find?_map_step (place : String) (step : Step) (p : List Step × String → Bool)
    (entries : List (List Step × String)) :
    ((entries.map (Prod.map (step :: ·) id)).find? p).map (errorAt place) =
      (entries.find? (p ∘ Prod.map (step :: ·) id)).map (errorAt (place ++ step.spell)) := by
  rw [List.find?_map, Option.map_map]
  congr 1
  funext entry
  simp only [Function.comp_apply, Prod.map, id_eq, errorAt, Json.spell_cons, String.append_assoc]

theorem findItem?_cons (authors : List String) (place : String) (field : Option String)
    (position : Nat) (item : Json) (more : List Json) :
    findItem? authors place field position (item :: more) =
      (find? authors (place ++ (Step.item position).spell) field item).or
        (findItem? authors place field (position + 1) more) := by
  rw [findItem?, Step.spell, ← String.append_assoc, ← String.append_assoc]
  cases find? authors _ field item <;> rfl

theorem findMember?_cons (authors : List String) (place : String) (field : Option String)
    (key : String) (value : Json) (more : List (String × Json)) :
    findMember? authors place field ((key, value) :: more) =
      (find? authors (place ++ (Step.member key).spell) (some (innerField field key)) value).or
        (findMember? authors place field more) := by
  rw [findMember?, Step.spell, ← String.append_assoc]
  cases find? authors _ _ value <;> rfl

theorem check?_cons (authors : List String) (name : String) (value : Json)
    (more : List (String × Json)) : check? authors ((name, value) :: more) =
      (find? authors ("queries" ++ (Step.member name).spell) none value).or
        (check? authors more) := by
  have place : "queries" ++ (Step.member name).spell = "queries." ++ name := by
    rw [Step.spell, ← String.append_assoc]
    rfl
  rw [place, check?, List.findSome?_cons]
  dsimp only
  cases find? authors ("queries." ++ name) none value <;> rfl

mutual

/-- What is found in a value is the first of its texts that is refused. -/
theorem find?_eq (authors : List String) (place : String) (field : Option String) :
    (value : Json) → find? authors place field value =
      (value.texts.find? (refuses authors field)).map (errorAt place)
  | .str s => by
      rw [find?, Json.texts, List.find?_singleton, refuses, fieldAt]
      split <;> simp [errorAt, spell]
  | .arr items => by
      rw [find?, Json.texts]
      exact findItem?_eq authors place field 0 items
  | .obj members => by
      rw [find?, Json.texts]
      exact findMember?_eq authors place field members
  | .null | .bool _ | .num _ => by
      rw [find?, Json.texts] <;> simp

theorem findItem?_eq (authors : List String) (place : String) (field : Option String) :
    (position : Nat) → (items : List Json) → findItem? authors place field position items =
      ((Json.textsOfItems position items).find? (refuses authors field)).map (errorAt place)
  | _, [] => rfl
  | position, item :: more => by
      have below : refuses authors field ∘ Prod.map (.item position :: ·) id =
          refuses authors field := rfl
      rw [findItem?_cons, find?_eq authors _ field item, findItem?_eq authors place field _ more,
        Json.textsOfItems, List.find?_append, Option.map_or, find?_map_step, below]

theorem findMember?_eq (authors : List String) (place : String) (field : Option String) :
    (members : List (String × Json)) → findMember? authors place field members =
      ((Json.textsOfMembers members).find? (refuses authors field)).map (errorAt place)
  | [] => rfl
  | (key, value) :: more => by
      have below : refuses authors field ∘ Prod.map (.member key :: ·) id =
          refuses authors (some (innerField field key)) := rfl
      rw [findMember?_cons, find?_eq authors _ _ value, findMember?_eq authors place field more,
        Json.textsOfMembers, List.find?_append, Option.map_or, find?_map_step, below]

end

/-! ## Queries -/

/-- A text with a sigil that may not stand where it does.  The first step of its path leads to
the query, and does not count. -/
structure Offends (authors : List String) (queries : Object) (path : List Step) (s : String) :
    Prop where
  present : (Json.obj queries).at? path = some (.str s)
  sigil : s.toList.head? = some '$'
  refused : ¬ Tolerated authors path.tail s

/-- What is found in queries is the first of their texts that is refused below its query. -/
theorem check?_eq (authors : List String) (queries : Object) :
    check? authors queries =
      ((Json.obj queries).texts.find? (refuses authors none ∘ Prod.map List.tail id)).map
        (errorAt "queries") := by
  rw [Json.texts]
  induction queries with
  | nil => rfl
  | cons query more ih =>
      obtain ⟨name, value⟩ := query
      have below : (refuses authors none ∘ Prod.map List.tail id) ∘
          Prod.map (.member name :: ·) id = refuses authors none := rfl
      rw [check?_cons, find?_eq authors _ none value, ih, Json.textsOfMembers, List.find?_append,
        Option.map_or, find?_map_step, below]

theorem offends_iff {authors : List String} {queries : Object} {path : List Step} {s : String}
    (ordered : (Json.obj queries).Ordered) : Offends authors queries path s ↔
      (path, s) ∈ (Json.obj queries).texts ∧ refuses authors none (path.tail, s) = true := by
  rw [Json.mem_texts_iff _ ordered, refuses, Bool.and_eq_true, beq_iff_eq, Bool.not_eq_true',
    Bool.eq_false_iff, ne_eq, isAllowed_fieldAt_iff]
  exact ⟨fun ⟨present, sigil, refused⟩ => ⟨present, sigil, refused⟩,
    fun ⟨present, sigil, refused⟩ => ⟨present, sigil, refused⟩⟩

theorem check?_eq_none_iff {authors : List String} {queries : Object}
    (ordered : (Json.obj queries).Ordered) :
    check? authors queries = none ↔ ∀ path s, ¬ Offends authors queries path s := by
  rw [check?_eq, Option.map_eq_none_iff, List.find?_eq_none, Prod.forall]
  refine forall_congr' fun path => forall_congr' fun s => ?_
  rw [offends_iff ordered, not_and]
  rfl

/-- What is reported is the text with the first path. -/
theorem exists_first_of_check? {authors : List String} {queries : Object} {error : CompileError}
    (ordered : (Json.obj queries).Ordered) (found : check? authors queries = some error) :
    ∃ path s, Offends authors queries path s ∧
      (∀ other t, Offends authors queries other t →
        other = path ∨ List.Lex Step.Before path other) ∧
      error = errorAt "queries" (path, s) := by
  rw [check?_eq, Option.map_eq_some_iff] at found
  obtain ⟨⟨path, s⟩, first, rfl⟩ := found
  have holds := List.find?_some first
  refine ⟨path, s, (offends_iff ordered).2 ⟨List.mem_of_find?_eq_some first, holds⟩,
    fun other t offends => ?_, rfl⟩
  obtain ⟨mem, refused⟩ := (offends_iff ordered).1 offends
  have later := Json.earlier_of_find?_eq_some (Json.pairwise_texts _ ordered) first mem refused
  exact later.imp_left (congrArg Prod.fst)

/--
Queries are accepted exactly if every text with a sigil, however deep it stands, may stand
there.  Otherwise the error is that of the one with the first path: it tells the path from the
queries on, the text, and the query that is named without the sigils.
-/
theorem check?_eq_iff (authors : List String) {queries : Object}
    (ordered : (Json.obj queries).Ordered) :
    (check? authors queries = none ↔
      ∀ path s, (Json.obj queries).at? path = some (.str s) → s.toList.head? = some '$' →
        Tolerated authors path.tail s) ∧
    ∀ error, check? authors queries = some error ↔
      ∃ path s, Offends authors queries path s ∧
        (∀ other t, Offends authors queries other t →
          other = path ∨ List.Lex Step.Before path other) ∧
        error = .legacyReference ("queries" ++ spell path) s
          ("queries." ++ String.ofList (s.toList.dropWhile (· == '$'))) := by
  constructor
  · rw [check?_eq_none_iff ordered]
    constructor
    · intro free path s present sigil
      by_contra refused
      exact free path s ⟨present, sigil, refused⟩
    · intro all path s offends
      exact offends.refused (all path s offends.present offends.sigil)
  · intro error
    constructor
    · exact exists_first_of_check? ordered
    · rintro ⟨path, s, offends, first, rfl⟩
      cases found : check? authors queries with
      | none => exact absurd offends ((check?_eq_none_iff ordered).1 found path s)
      | some error =>
          obtain ⟨path', s', offends', first', rfl⟩ :=
            exists_first_of_check? ordered found
          -- each of the two paths would come before the other
          have same : path = path' := by
            rcases first' path s offends with same | before
            · exact same
            · rcases first path' s' offends' with same | after
              · exact same.symm
              · exact absurd after (asymm before)
          subst same
          have text := offends'.present
          rw [offends.present] at text
          cases text
          rfl

/-- The current value and an author stand where they may, and the text in the inner array comes
before the two that stand outside of it or in the wrong field. -/
theorem check?_eq_iff_of_nested :
    let queries : Object := [("feed", .obj [("authors", .arr [.str "$contacts", .str "$me"])]),
      ("thread", .obj [
        ("tags", .arr [.arr [.str "e", .str "$$feed.0.id"], .str "$item.x"]),
        ("with", .obj [("authors", .str "$item.id"), ("id", .str "$feed")])])]
    let error : CompileError :=
      .legacyReference "queries.thread.tags[0][1]" "$$feed.0.id" "queries.feed.0.id"
    (Json.obj queries).Ordered ∧ check? ["$contacts", "$m"] queries = some error ∧
      ∃ path s, Offends ["$contacts", "$m"] queries path s ∧
        (∀ other t, Offends ["$contacts", "$m"] queries other t →
          other = path ∨ List.Lex Step.Before path other) ∧
        error = .legacyReference ("queries" ++ spell path) s
          ("queries." ++ String.ofList (s.toList.dropWhile (· == '$'))) := by
  intro queries error
  have ordered : (Json.obj queries).Ordered := by
    simp only [queries, Json.Ordered, Json.OrderedMembers, Json.OrderedItems, and_true, true_and]
    decide
  have found : check? ["$contacts", "$m"] queries = some error := by decide +kernel
  exact ⟨ordered, found, ((check?_eq_iff _ ordered).2 error).1 found⟩

end Legacy

end UiMarkdown
