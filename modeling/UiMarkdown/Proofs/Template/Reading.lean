import UiMarkdown.Proofs.Template.Expression
import UiMarkdown.Proofs.Text.Replace
import UiMarkdown.Template.DateFilter
import UiMarkdown.Template.Scope

/-!
# What a template reads

A reference reads one entry of a name space and then walks down from it.  An
expression reads its references from the left, up to an alternative whose text
is fixed.  The entries that a template reads decide its text, and each of them
does: with that entry alone, a large value shows in the text.
-/

namespace UiMarkdown

/-- A place in a name space. -/
inductive Entry where
  | query (name : String)
  | global (name : String)
  deriving DecidableEq, Repr

namespace Reference

/-- The entry that a reference reads first; a name space itself is no entry. -/
def entryRead? (reference : Reference) : Option Entry :=
  if reference.root == "queries" then
    reference.segments.head?.map fun segment => .query (Scope.segmentKey segment)
  else if reference.root == "globals" then
    reference.segments.head?.map fun segment => .global (Scope.segmentKey segment)
  else some (.global reference.root)

def stepsBelow (reference : Reference) : List Segment :=
  if reference.root == "queries" || reference.root == "globals" then reference.segments.tail
  else reference.segments

end Reference

namespace Scope

def valueAt? (scope : Scope) : Entry → Option Json
  | .query name => scope.queries.get? name
  | .global name => scope.globals.get? name

/-- The value of a reference is reached from its entry. -/
theorem resolve?_eq (scope : Scope) (reference : Reference) :
    scope.resolve? reference =
      (reference.entryRead?.bind scope.valueAt?).bind (walk? · reference.stepsBelow) := by
  obtain ⟨root, segments⟩ := reference
  by_cases queries : root = "queries"
  · subst queries
    cases segments <;> rfl
  · by_cases globals : root = "globals"
    · subst globals
      cases segments <;> rfl
    · simp [resolve?, Reference.entryRead?, Reference.stepsBelow, valueAt?, queries, globals]

def only (entry : Entry) (value : Json) : Scope :=
  match entry with
  | .query name => { queries := [(name, value)] }
  | .global name => { globals := [(name, value)] }

@[simp] theorem valueAt?_only (entry : Entry) (value : Json) :
    (only entry value).valueAt? entry = some value := by
  cases entry <;> simp [only, valueAt?, Object.get?]

theorem valueAt?_only_of_ne {entry other : Entry} (value : Json) (differ : other ≠ entry) :
    (only entry value).valueAt? other = none := by
  have absent {key name : String} (h : name ≠ key) : Object.get? [(key, value)] name = none := by
    rw [Object.get?, List.lookup_cons, beq_eq_false_iff_ne.2 h]
    rfl
  cases entry with
  | query key =>
      cases other with
      | query name => exact absent fun same => differ (congrArg Entry.query same)
      | global name => rfl
  | global key =>
      cases other with
      | query name => rfl
      | global name => exact absent fun same => differ (congrArg Entry.global same)

@[simp] theorem valueAt?_empty (entry : Entry) : ({} : Scope).valueAt? entry = none := by
  cases entry <;> rfl

def nest (segments : List Segment) (value : Json) : Json :=
  segments.foldr (fun segment inner => .obj [(segmentKey segment, inner)]) value

@[simp] theorem walk?_nest (segments : List Segment) (value : Json) :
    walk? (nest segments value) segments = some value := by
  induction segments with
  | nil => rfl
  | cons segment more ih =>
      have step : step? (nest (segment :: more) value) segment = some (nest more value) := by
        simp [nest, step?, Object.get?]
      rw [walk?, List.foldlM_cons, step]
      exact ih

end Scope

namespace Expression

/-- The reference that an alternative evaluates, if its head is one. -/
def reference? (alternative : List Char) : Option Reference :=
  let head := head alternative
  if head == ['t', 'r', 'u', 'e'] || head == ['f', 'a', 'l', 's', 'e'] then none
  else Reference.ofChars? head

/--
The references that can decide the text of an expression with the given
alternatives.  An alternative without a reference has a fixed text; if it has
any, no later alternative counts.
-/
def readable (filters : FilterTable) : List (List Char) → List Reference
  | [] => []
  | alternative :: more =>
      match reference? alternative with
      | some reference => reference :: readable filters more
      | none =>
          if (({} : Scope).alternativeText? filters alternative).isSome then []
          else readable filters more

end Expression

namespace Template

def entriesRead (filters : FilterTable) (s : List Char) : List Entry :=
  (pieces s).flatMap fun
    | .plain _ => []
    | .span body =>
        (Expression.readable filters (Expression.alternatives body)).filterMap Reference.entryRead?

end Template

/-! ## What is read is written -/

namespace Expression

theorem exists_alternative_of_readable {filters : FilterTable} {alternatives : List (List Char)}
    {reference : Reference} (mem : reference ∈ readable filters alternatives) :
    ∃ alternative ∈ alternatives, reference? alternative = some reference := by
  induction alternatives with
  | nil => cases mem
  | cons alternative more ih =>
      rw [readable] at mem
      cases evaluates : reference? alternative with
      | some first =>
          rw [evaluates] at mem
          obtain rfl | mem := List.mem_cons.1 mem
          · exact ⟨alternative, List.mem_cons_self, evaluates⟩
          · obtain ⟨other, isOther, evaluates⟩ := ih mem
            exact ⟨other, List.mem_cons_of_mem _ isOther, evaluates⟩
      | none =>
          rw [evaluates] at mem
          dsimp only at mem
          split at mem
          · cases mem
          · obtain ⟨other, isOther, evaluates⟩ := ih mem
            exact ⟨other, List.mem_cons_of_mem _ isOther, evaluates⟩

/-- The references that can decide an expression are written in it. -/
theorem exists_text_of_readable {filters : FilterTable} {s : List Char} {reference : Reference}
    (mem : reference ∈ readable filters (alternatives s)) :
    ∃ text ∈ references s, Reference.ofText? text = some reference := by
  obtain ⟨alternative, isAlternative, evaluates⟩ := exists_alternative_of_readable mem
  rw [reference?] at evaluates
  split at evaluates
  · cases evaluates
  · rename_i constant
    refine ⟨String.ofList (head alternative),
      List.mem_filterMap.2 ⟨alternative, isAlternative, ?_⟩, ?_⟩
    · dsimp only
      rw [Bool.or_eq_true, not_or] at constant
      rw [if_neg (by simpa using constant), evaluates]
      rfl
    · rw [Reference.ofText?, String.toList_ofList, head, Text.trim_trim]
      exact evaluates

end Expression

/-- Every entry that a text reads is read by a reference that is written in it. -/
theorem Template.exists_text_of_entriesRead {filters : FilterTable} {s : List Char}
    {entry : Entry} (reads : entry ∈ entriesRead filters s) :
    ∃ text ∈ references s, ∃ reference, Reference.ofText? text = some reference ∧
      reference.entryRead? = some entry := by
  obtain ⟨piece, isPiece, reads⟩ := List.mem_flatMap.1 reads
  cases piece with
  | plain s => cases reads
  | span body =>
      obtain ⟨reference, isReadable, reads⟩ := List.mem_filterMap.1 reads
      rw [← Expression.alternatives_trim] at isReadable
      obtain ⟨text, stands, written⟩ := Expression.exists_text_of_readable isReadable
      refine ⟨text, List.mem_flatMap.2 ⟨Text.trim body, ?_, stands⟩, reference, written, reads⟩
      exact List.mem_filterMap.2 ⟨_, isPiece, rfl⟩

namespace Scope

variable {filters : FilterTable}

/-! ## The entries read decide the text -/

theorem head?_of_reference? {scope : Scope} {alternative : List Char} {reference : Reference}
    (evaluates : Expression.reference? alternative = some reference) :
    scope.head? (Expression.head alternative) = scope.resolve? reference := by
  rw [Expression.reference?] at evaluates
  split at evaluates
  · cases evaluates
  · rename_i constant
    rw [Bool.or_eq_true, not_or] at constant
    rw [head?, evaluates]
    dsimp only
    rw [if_neg constant.1, if_neg constant.2]

theorem head?_of_constant {a b : Scope} {alternative : List Char}
    (constant : Expression.reference? alternative = none) :
    a.head? (Expression.head alternative) = b.head? (Expression.head alternative) := by
  rw [Expression.reference?] at constant
  rw [head?, head?]
  split at constant
  · rename_i literal
    rw [Bool.or_eq_true, beq_iff_eq, beq_iff_eq] at literal
    obtain literal | literal := literal <;> rw [literal] <;> rfl
  · rw [constant]

theorem alternative?_eq (scope : Scope) (alternative : List Char) :
    scope.alternative? filters alternative =
      match Expression.stages alternative with
      | [] => none
      | _ :: stages =>
          (scope.head? (Expression.head alternative)).map fun value =>
            stages.foldl (applyStage filters) value := by
  rw [alternative?]
  cases split : Expression.stages alternative with
  | nil => rfl
  | cons head stages =>
      rw [Expression.head, split]
      rfl

/-- The text of an alternative depends on the value of its head only. -/
theorem alternativeText?_congr {a b : Scope} {alternative : List Char}
    (same : a.head? (Expression.head alternative) = b.head? (Expression.head alternative)) :
    a.alternativeText? filters alternative = b.alternativeText? filters alternative := by
  rw [alternativeText?, alternativeText?, alternative?_eq, alternative?_eq, same]

/-- Scopes that agree on what the alternatives read give them the same text. -/
theorem findSome?_alternativeText?_congr {a b : Scope} {alternatives : List (List Char)}
    (agree : ∀ reference ∈ Expression.readable filters alternatives,
      a.resolve? reference = b.resolve? reference) :
    alternatives.findSome? (a.alternativeText? filters) =
      alternatives.findSome? (b.alternativeText? filters) := by
  induction alternatives with
  | nil => rfl
  | cons alternative more ih =>
      rw [Expression.readable] at agree
      rw [List.findSome?_cons, List.findSome?_cons]
      cases evaluates : Expression.reference? alternative with
      | some reference =>
          rw [evaluates] at agree
          rw [List.forall_mem_cons] at agree
          have same : a.head? (Expression.head alternative) =
              b.head? (Expression.head alternative) := by
            rw [head?_of_reference? evaluates, head?_of_reference? evaluates, agree.1]
          rw [alternativeText?_congr same, ih agree.2]
      | none =>
          rw [evaluates] at agree
          dsimp only at agree
          rw [alternativeText?_congr (head?_of_constant evaluates) (b := {}),
            alternativeText?_congr (a := b) (head?_of_constant evaluates) (b := {})]
          cases text : ({} : Scope).alternativeText? filters alternative with
          | some text => rfl
          | none =>
              rw [text, Option.isSome_none, if_neg Bool.false_ne_true] at agree
              exact ih agree

theorem resolve?_congr {a b : Scope} {reference : Reference}
    (agree : ∀ entry ∈ reference.entryRead?, a.valueAt? entry = b.valueAt? entry) :
    a.resolve? reference = b.resolve? reference := by
  rw [resolve?_eq, resolve?_eq]
  cases reads : reference.entryRead? with
  | none => rfl
  | some entry => rw [Option.bind_some, Option.bind_some, agree entry reads]

/-- Scopes that agree on the entries that a template reads give it the same text. -/
theorem interpolate_congr {a b : Scope} {template : List Char}
    (agree : ∀ entry ∈ Template.entriesRead filters (guardEscapes template),
      a.valueAt? entry = b.valueAt? entry) :
    a.interpolate filters template = b.interpolate filters template := by
  rw [interpolate, interpolate]
  refine congrArg releaseEscapes (List.flatMap_congr fun piece mem => ?_)
  cases piece with
  | plain s => rfl
  | span body =>
      have readable : ∀ reference ∈
          Expression.readable filters (Expression.alternatives body),
          a.resolve? reference = b.resolve? reference := by
        intro reference isReadable
        refine resolve?_congr fun entry reads => agree entry ?_
        exact List.mem_flatMap.2 ⟨_, mem, List.mem_filterMap.2 ⟨reference, isReadable, reads⟩⟩
      rw [pieceText, pieceText, expression?, expression?,
        findSome?_alternativeText?_congr readable]

/-! ## Every entry read shows in the text -/

/-- A value with a long text that no standard filter changes. -/
def bulk (size : Nat) : Json :=
  .arr (List.replicate size .null)

theorem lt_length_write_bulk (size : Nat) : size < (bulk size).write.length := by
  have items (size : Nat) : size ≤ (Json.writeItems (List.replicate size .null)).length := by
    induction size with
    | zero => exact Nat.zero_le _
    | succ size ih =>
        cases size with
        | zero => decide
        | succ size =>
            rw [List.replicate_succ, List.replicate_succ] at *
            rw [Json.writeItems, List.length_append, List.length_cons]
            · omega
            · simp
  rw [bulk, Json.write, List.length_append, List.length_cons]
  have fits := items size
  omega

theorem apply_standard_bulk (size : Nat) (name : String) (arg : Option (List Char)) :
    FilterTable.standard.apply name (bulk size) arg = bulk size := by
  have entries : FilterTable.standard.entries = [("format_date", Filter.formatDate),
      ("trim", Filter.trim), ("uppercase", Filter.uppercase)] := by rfl
  rw [FilterTable.apply, FilterTable.get?, entries, List.lookup_cons, List.lookup_cons,
    List.lookup_cons]
  cases name == "format_date" with
  | true => rfl
  | false =>
      cases name == "trim" with
      | true => rfl
      | false => cases name == "uppercase" <;> rfl

theorem alternativeText?_of_bulk {scope : Scope} {alternative : List Char} {size : Nat}
    (value : scope.head? (Expression.head alternative) = some (bulk size)) :
    scope.alternativeText? .standard alternative = some (bulk size).write := by
  have kept (stages : List (List Char)) :
      stages.foldl (applyStage .standard) (bulk size) = bulk size := by
    induction stages with
    | nil => rfl
    | cons stage more ih =>
        rw [List.foldl_cons, applyStage]
        dsimp only
        rw [apply_standard_bulk, ih]
  rw [alternativeText?, alternative?_eq, value]
  cases split : Expression.stages alternative with
  | nil => exact absurd split (Expression.splitOutsideQuotes_ne_nil _ _ _)
  | cons head stages =>
      dsimp only
      rw [Option.map_some, kept]
      rfl

theorem alternativeText?_of_missing {scope : Scope} {alternative : List Char}
    (missing : scope.head? (Expression.head alternative) = none) :
    scope.alternativeText? filters alternative = none := by
  rw [alternativeText?, alternative?_eq, missing]
  cases Expression.stages alternative <;> rfl

/--
An entry that an expression reads decides it: at the end of some path below the
entry, with no other entry around, a large value is the text.
-/
theorem exists_steps_of_readable {entry : Entry} {alternatives : List (List Char)}
    (reads : entry ∈ (Expression.readable .standard alternatives).filterMap Reference.entryRead?) :
    ∃ steps, ∀ size,
      alternatives.findSome?
        ((only entry (nest steps (bulk size))).alternativeText? .standard) =
          some (bulk size).write := by
  induction alternatives with
  | nil => cases reads
  | cons alternative more ih =>
      rw [Expression.readable] at reads
      cases evaluates : Expression.reference? alternative with
      | some reference =>
          rw [evaluates] at reads
          by_cases here : reference.entryRead? = some entry
          · refine ⟨reference.stepsBelow, fun size => ?_⟩
            rw [List.findSome?_cons, alternativeText?_of_bulk]
            rw [head?_of_reference? evaluates, resolve?_eq, here, Option.bind_some, valueAt?_only,
              Option.bind_some, walk?_nest]
          · have later :
                entry ∈ (Expression.readable .standard more).filterMap Reference.entryRead? := by
              obtain ⟨other, mem, otherReads⟩ := List.mem_filterMap.1 reads
              obtain rfl | mem := List.mem_cons.1 mem
              · exact absurd otherReads here
              · exact List.mem_filterMap.2 ⟨other, mem, otherReads⟩
            obtain ⟨steps, shows⟩ := ih later
            refine ⟨steps, fun size => ?_⟩
            have missing : (only entry (nest steps (bulk size))).head?
                (Expression.head alternative) = none := by
              rw [head?_of_reference? evaluates, resolve?_eq]
              cases otherReads : reference.entryRead? with
              | none => rfl
              | some other =>
                  have differ : other ≠ entry := by
                    rintro rfl
                    exact here otherReads
                  rw [Option.bind_some, valueAt?_only_of_ne _ differ, Option.bind_none]
            rw [List.findSome?_cons, alternativeText?_of_missing missing]
            exact shows size
      | none =>
          rw [evaluates] at reads
          dsimp only at reads
          cases text : ({} : Scope).alternativeText? .standard alternative with
          | some text =>
              rw [text] at reads
              cases reads
          | none =>
              rw [text, Option.isSome_none, if_neg Bool.false_ne_true] at reads
              obtain ⟨steps, shows⟩ := ih reads
              refine ⟨steps, fun size => ?_⟩
              rw [List.findSome?_cons,
                alternativeText?_congr (head?_of_constant evaluates) (b := {}), text]
              exact shows size

theorem length_releaseEscapes (s : List Char) : (releaseEscapes s).length = s.length := by
  have opened : Template.opening.length = openingGuard.length := rfl
  have closed : Template.closing.length = closingGuard.length := rfl
  rw [releaseEscapes, Text.length_replace closed (by decide),
    Text.length_replace opened (by decide)]

/-- With an entry that a template reads, and no other, its text may be as long as one likes. -/
theorem exists_long_interpolate {entry : Entry} {template : List Char}
    (reads : entry ∈ Template.entriesRead .standard (guardEscapes template)) (size : Nat) :
    ∃ value, size < ((only entry value).interpolate .standard template).length := by
  obtain ⟨piece, isPiece, reads⟩ := List.mem_flatMap.1 reads
  cases piece with
  | plain s => cases reads
  | span body =>
      obtain ⟨steps, shows⟩ := exists_steps_of_readable reads
      refine ⟨nest steps (bulk size), ?_⟩
      have inside : ((only entry (nest steps (bulk size))).pieceText .standard (.span body)).Sublist
          ((Template.pieces (guardEscapes template)).flatMap
            ((only entry (nest steps (bulk size))).pieceText .standard)) :=
        List.sublist_flatten_of_mem (List.mem_map.2 ⟨_, isPiece, rfl⟩)
      have fits := inside.length_le
      rw [pieceText, expression?, shows size, Option.getD_some] at fits
      rw [interpolate, length_releaseEscapes]
      exact Nat.lt_of_lt_of_le (lt_length_write_bulk size) fits

end Scope

end UiMarkdown
