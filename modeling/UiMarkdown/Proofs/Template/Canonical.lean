import UiMarkdown.Proofs.Mask.Token
import UiMarkdown.Proofs.Template.Grammar
import UiMarkdown.Proofs.Text.Quoted
import UiMarkdown.Proofs.Text.Words

/-!
# The canonical text of a reference

The printer puts every key that is no identifier between double quotes, and escapes
what it finds there.  The grammar has quotes, but it knows no escape: it ends a key at
the next quote and keeps every backslash.  The canonical text of a reference is
therefore a spelling of this reference exactly when no quoted key needs an escape.
-/

namespace UiMarkdown

namespace Reference

/-- A key that is written with its characters as they are, with or without quotes. -/
def IsPlainKey (name : String) : Prop :=
  isIdentifier name.toList = true ∨ ∀ c ∈ name.toList, Text.escapeChar c = [c]

/-! ## The text of a step -/

theorem isInteger_toDigits {n : Nat} (fits : n < Nat.pow 2 64) : IsInteger (Nat.toDigits 10 n) := by
  refine ⟨Nat.toDigits_ne_nil, Mask.isDigit_of_mem_toDigits n, ?_⟩
  rw [Mask.digitsValue_toDigits]
  exact fits

/-- The canonical text of an index or of a plain key spells it. -/
theorem exists_step_of_isPlainKey {segment : Segment}
    (fits : ∀ n, segment = .index n → n < Nat.pow 2 64)
    (plain : ∀ name, segment = .key name → IsPlainKey name) :
    ∃ step : Step, step.text = segmentText segment ∧ step.segment = segment := by
  cases segment with
  | index n =>
      refine ⟨.index (Nat.toDigits 10 n) (isInteger_toDigits (fits n rfl)), rfl, ?_⟩
      exact congrArg Segment.index (Mask.digitsValue_toDigits n)
  | key name =>
      have same : Segment.key (String.ofList name.toList) = .key name :=
        congrArg Segment.key String.ofList_toList
      rw [segmentText]
      split
      · rename_i isName
        exact ⟨.name name.toList isName, rfl, same⟩
      · rename_i noName
        have shown := (plain name rfl).resolve_left noName
        have apart : '"' ∉ name.toList := by
          intro mem
          exact absurd (shown '"' mem) (by decide)
        refine ⟨.quoted '"' (.inl rfl) name.toList apart, ?_, same⟩
        rw [Step.text, Text.quoted, Text.flatMap_escapeChar_eq_self_iff.2 shown]
        simp

/-- A key that is read off its own canonical text is plain. -/
theorem isPlainKey_of_text_append {step : Step} {rest more : List Char} {name : String}
    (same : step.text ++ rest = segmentText (.key name) ++ more)
    (isKey : step.segment = .key name) : IsPlainKey name := by
  by_cases isName : isIdentifier name.toList = true
  · exact .inl isName
  · right
    rw [segmentText, if_neg isName, Text.quoted] at same
    simp only [List.cons_append, List.append_assoc, List.nil_append] at same
    cases step with
    | name text _ => exact absurd (List.cons.inj same).1 (by decide)
    | number digits _ => exact absurd (List.cons.inj same).1 (by decide)
    | index digits isNumber => cases isKey
    | word word isWord =>
        obtain ⟨c, others, rfl, -, isChar⟩ := isWord.exists_cons
        have starts : c = '"' := (List.cons.inj (List.cons.inj same).2).1
        rw [starts] at isChar
        exact absurd isChar (by decide)
    | quoted quote isQuote text apart =>
        simp only [Step.text, List.cons_append, List.append_assoc] at same
        obtain ⟨rfl, inside⟩ := List.cons.inj (List.cons.inj same).2
        obtain rfl : text = name.toList := by
          rw [← Segment.key.inj isKey, String.toList_ofList]
        -- both texts go up to the first quote
        have run := takeRun_quote apart ([']'] ++ rest)
        rw [List.nil_append] at inside
        rw [List.singleton_append, inside,
          takeRun_quote (Text.quote_not_mem_flatMap_escapeChar apart), Prod.mk.injEq] at run
        exact Text.flatMap_escapeChar_eq_self_iff.1 run.1

/-! ## The text of a path -/

theorem segmentText_ne_nil (segment : Segment) : segmentText segment ≠ [] := by
  cases segment with
  | index n => exact List.cons_ne_nil _ _
  | key name =>
      rw [segmentText]
      split <;> exact List.cons_ne_nil _ _

theorem stopsAt_flatMap_segmentText (segments : List Segment) :
    StopsAt isIdentifierChar (segments.flatMap segmentText) := by
  cases segments with
  | nil => rintro c ⟨⟩
  | cons segment more =>
      cases segment with
      | index n => exact stopsAt_cons (by decide) _
      | key name =>
          rw [List.flatMap_cons, segmentText]
          split <;> exact stopsAt_cons (by decide) _

/-- A path of plain keys is spelled by its canonical text. -/
theorem exists_steps_of_isPlainKey {segments : List Segment}
    (fits : ∀ n, .index n ∈ segments → n < Nat.pow 2 64)
    (plain : ∀ name, .key name ∈ segments → IsPlainKey name) :
    ∃ steps : List Step, steps.flatMap Step.text = segments.flatMap segmentText ∧
      steps.map Step.segment = segments := by
  induction segments with
  | nil => exact ⟨[], rfl, rfl⟩
  | cons segment more ih =>
      simp only [List.mem_cons] at fits plain
      obtain ⟨step, text, leads⟩ := exists_step_of_isPlainKey
        (fun n isIndex => fits n (.inl isIndex.symm))
        (fun name isKey => plain name (.inl isKey.symm))
      obtain ⟨steps, texts, lead⟩ := ih (fun n mem => fits n (.inr mem))
        (fun name mem => plain name (.inr mem))
      refine ⟨step :: steps, ?_, ?_⟩
      · rw [List.flatMap_cons, List.flatMap_cons, text, texts]
      · rw [List.map_cons, leads, lead]

/-- A path that is read off its own canonical text has only plain keys. -/
theorem isPlainKey_of_flatMap_text_eq {steps : List Step}
    (fits : ∀ n, .index n ∈ steps.map Step.segment → n < Nat.pow 2 64)
    (same : steps.flatMap Step.text = (steps.map Step.segment).flatMap segmentText) :
    ∀ name, .key name ∈ steps.map Step.segment → IsPlainKey name := by
  induction steps with
  | nil => rintro name ⟨⟩
  | cons step more ih =>
      simp only [List.map_cons, List.mem_cons, List.flatMap_cons] at fits same ⊢
      have plain : ∀ name, step.segment = .key name → IsPlainKey name := by
        intro name isKey
        rw [isKey] at same
        exact isPlainKey_of_text_append same isKey
      -- a plain step ends where its canonical text ends, and the others stand behind both
      obtain ⟨written, text, -⟩ := exists_step_of_isPlainKey
        (fun n isIndex => fits n (.inl isIndex.symm)) plain
      have later : more.flatMap Step.text = (more.map Step.segment).flatMap segmentText := by
        rw [← text] at same
        have first := readSegment?_text_append step (stopsAt_flatMap_text more)
        rw [same, readSegment?_text_append written (stopsAt_flatMap_segmentText _), Option.some_inj,
          Prod.mk.injEq] at first
        exact first.2.symm
      rintro name (isKey | mem)
      · exact plain name isKey.symm
      · exact ih (fun n isIndex => fits n (.inr isIndex)) later name mem

/-! ## Canonical texts have no white space around them -/

theorem isBlank_of_isIdentifierChar {c : Char} (isChar : isIdentifierChar c = true) :
    Text.isBlank c = false := by
  by_contra blank
  rw [Bool.not_eq_false] at blank
  rw [isIdentifierChar, Text.isAlphanum_of_isBlank blank, Bool.false_or, Bool.or_eq_true,
    beq_iff_eq, beq_iff_eq] at isChar
  rcases isChar with rfl | rfl <;> revert blank <;> decide

theorem trimEnd_of_isIdentifier {name : List Char} (isName : isIdentifier name = true) :
    Text.trimEnd name = name := by
  apply Text.trimEnd_eq_self_of_forall
  intro c mem
  exact isBlank_of_isIdentifierChar ((isIdentifier_iff.1 isName).2.2 c mem)

/-- A canonical step ends with a bracket or with its name. -/
theorem trimEnd_append_segmentText (before : List Char) (segment : Segment) :
    Text.trimEnd (before ++ segmentText segment) = before ++ segmentText segment := by
  have ends {a b : List Char} (kept : Text.trimEnd b = b) (nonempty : b ≠ []) :
      Text.trimEnd (a ++ b) = a ++ b := by
    rw [← kept] at nonempty
    rw [Text.trimEnd_append nonempty, kept]
  have bracket (s : List Char) : Text.trimEnd (s ++ [']']) = s ++ [']'] :=
    ends rfl (List.cons_ne_nil _ _)
  apply ends _ (segmentText_ne_nil segment)
  cases segment with
  | index n => exact bracket _
  | key name =>
      rw [segmentText]
      split
      · rename_i isName
        exact ends (a := ['.']) (trimEnd_of_isIdentifier isName) (isIdentifier_iff.1 isName).1
      · exact bracket _

theorem trim_text {reference : Reference} (isRoot : isIdentifier reference.root.toList = true) :
    Text.trim reference.text.toList = reference.text.toList := by
  have ends : Text.trimEnd reference.text.toList = reference.text.toList := by
    rw [text, String.toList_ofList]
    rcases List.eq_nil_or_concat reference.segments with none | ⟨before, last, split⟩
    · rw [none, List.flatMap_nil, List.append_nil]
      exact trimEnd_of_isIdentifier isRoot
    · rw [split, List.concat_eq_append, List.flatMap_append, List.flatMap_singleton,
        ← List.append_assoc]
      exact trimEnd_append_segmentText _ last
  obtain ⟨nonempty, -, isChar⟩ := isIdentifier_iff.1 isRoot
  obtain ⟨c, more, root⟩ := List.exists_cons_of_ne_nil nonempty
  rw [root] at isChar
  have starts := isBlank_of_isIdentifierChar (isChar c List.mem_cons_self)
  rw [text, String.toList_ofList, root, List.cons_append] at ends ⊢
  exact Text.trim_eq_self starts ends

/-! ## References that are read -/

/-- What is read has an identifier as its root, and its integers have 64 bits. -/
theorem bounds_of_ofText? {text : String} {reference : Reference}
    (read : ofText? text = some reference) :
    isIdentifier reference.root.toList = true ∧
      ∀ n, .index n ∈ reference.segments → n < Nat.pow 2 64 := by
  obtain ⟨⟨root, isRoot, steps⟩, -, rfl⟩ := ofChars?_eq_some_iff.1 read
  rw [Spelling.reference, String.toList_ofList]
  refine ⟨isRoot, ?_⟩
  intro n isIndex
  obtain ⟨step, -, isIndex⟩ := List.mem_map.1 isIndex
  cases step with
  | number digits isNumber | index digits isNumber =>
      cases isIndex
      exact isNumber.fits
  | _ => cases isIndex

/--
The canonical text of a reference that was read is read as this reference again
exactly when all its keys are plain.
-/
theorem rereads_iff_keys_plain {text : String} {reference : Reference}
    (read : ofText? text = some reference) :
    ofText? reference.text = some reference ↔
      ∀ name, .key name ∈ reference.segments → IsPlainKey name := by
  obtain ⟨isRoot, fits⟩ := bounds_of_ofText? read
  rw [ofText?, trim_text isRoot, ofChars?_eq_some_iff, Reference.text, String.toList_ofList]
  constructor
  · rintro ⟨⟨root, isRoot', steps⟩, same, rfl⟩
    rw [Spelling.text, Spelling.reference, String.toList_ofList, List.append_right_inj] at same
    exact isPlainKey_of_flatMap_text_eq fits same
  · intro plain
    obtain ⟨steps, texts, leads⟩ := exists_steps_of_isPlainKey fits plain
    refine ⟨⟨reference.root.toList, isRoot, steps⟩, ?_, ?_⟩
    · rw [Spelling.text, texts]
    · rw [Spelling.reference, String.ofList_toList, leads]

/-- Zeros in front and quotes around an identifier are left out, those of an empty key are not. -/
theorem rereads_of_quoted :
    let text := "queries.feed.007['name'][\"\"]"
    let reference : Reference := ⟨"queries", [.key "feed", .index 7, .key "name", .key ""]⟩
    ofText? text = some reference ∧ reference.text = "queries.feed[7].name[\"\"]" ∧
      ofText? reference.text = some reference := by
  intro text reference
  have read : ofText? text = some reference := by decide +kernel
  refine ⟨read, by decide +kernel, (rereads_iff_keys_plain read).2 ?_⟩
  intro name isKey
  have known : name = "feed" ∨ name = "name" ∨ name = "" := by
    simpa [reference] using isKey
  rcases known with rfl | rfl | rfl
  · exact .inl (by decide +kernel)
  · exact .inl (by decide +kernel)
  · right
    simp

/-- A quote in a key is written as an escape, which the grammar does not know. -/
theorem not_rereads_of_quote :
    let text := "a['\"']"
    let reference : Reference := ⟨"a", [.key "\""]⟩
    ofText? text = some reference ∧ reference.text = "a[\"\\\"\"]" ∧
      ofText? reference.text = none ∧
      ¬ ∀ text reference, ofText? text = some reference →
        ofText? reference.text = some reference := by
  intro text reference
  have read : ofText? text = some reference := by decide +kernel
  have failed : ofText? reference.text = none := by decide +kernel
  refine ⟨read, by decide +kernel, failed, ?_⟩
  intro again
  rw [again text reference read] at failed
  cases failed

end Reference

end UiMarkdown
