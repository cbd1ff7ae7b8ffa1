import UiMarkdown.Proofs.Json.Object
import UiMarkdown.Proofs.Number.Numeral
import UiMarkdown.Proofs.Text.Words
import UiMarkdown.Source.Layout
import UiMarkdown.Source.Writer

/-!
# Loops that are written and read

The payload that is written of a loop has the data of the loop next to its source and
its name, and is read as a loop again.  The data come back as they are, since a length
with its unit needs no other, and so does the source.  Of the name the white space is
trimmed before the sigils are dropped, and so once more if it stands behind them.
-/

namespace UiMarkdown

namespace Object

/-- Setting a name that is left out changes nothing. -/
theorem without_insert {object : Object} {names : List String} {key : String} (mem : key ∈ names)
    (value : Json) : (object.insert key value).without names = object.without names := by
  have gone : decide (key ∈ names) = true := decide_eq_true mem
  induction object with
  | nil => simp [insert, without, mem]
  | cons first rest ih =>
      obtain ⟨k, v⟩ := first
      unfold without at ih ⊢
      rw [insert]
      split
      · simp [mem]
      · split
        · rename_i same
          rw [beq_iff_eq] at same
          simp [mem, ← same]
        · rw [List.filter_cons, List.filter_cons, ih]

end Object

/-! ## Lengths -/

namespace Layout

theorem keys_sanitize (payload : Object) : (sanitize payload).map (·.1) = payload.map (·.1) := by
  rw [sanitize, List.map_map]
  refine List.map_congr_left fun member _ => ?_
  simp only [Function.comp_apply]
  split <;> rfl

/-- A length with its unit is no bare number. -/
theorem isPlainNumber_append_unit (s : List Char) : isPlainNumber (s ++ unit) = false := by
  unfold isPlainNumber
  have letter : (s ++ unit).all (fun c => c.isDigit || c == '.') = false := by
    rw [List.all_append]
    exact Bool.and_false _
  rw [letter, Bool.and_false, Bool.false_and]

theorem trim_append_unit {s : List Char} (solid : ∀ c ∈ s, Text.isBlank c = false) :
    Text.trim (s ++ unit) = s ++ unit := by
  have whole : ∀ c ∈ s ++ unit, Text.isBlank c = false := by
    intro c mem
    rcases List.mem_append.1 mem with inside | letter
    · exact solid c inside
    · rw [unit, List.mem_cons, List.mem_singleton] at letter
      rcases letter with rfl | rfl <;> rfl
  cases chars : s ++ unit with
  | nil => rfl
  | cons c rest =>
      rw [chars] at whole
      exact Text.trim_eq_self (whole c List.mem_cons_self) (Text.trimEnd_eq_self_of_forall whole)

theorem isBlank_of_isNumeral {c : Char} (numeral : FloatLayout.isNumeral c = true) :
    Text.isBlank c = false := by
  by_contra blank
  rw [Bool.not_eq_false] at blank
  have other := Text.isAlphanum_of_isBlank blank
  rw [Char.isAlphanum, Bool.or_eq_false_iff] at other
  simp only [FloatLayout.isNumeral, other.2, Bool.false_or, Bool.or_eq_true, beq_iff_eq] at numeral
  rcases numeral with ((rfl | rfl) | rfl) | rfl <;> exact absurd blank (by decide)

/-- A length has one unit, however often it is given one. -/
theorem withUnit_withUnit (value : Json) : withUnit (withUnit value) = withUnit value := by
  have stays {s : List Char} (solid : ∀ c ∈ s, Text.isBlank c = false) :
      withUnit (.str (String.ofList (s ++ unit))) = .str (String.ofList (s ++ unit)) := by
    simp only [withUnit, String.toList_ofList, trim_append_unit solid, isPlainNumber_append_unit,
      Bool.false_eq_true, if_false]
  cases value with
  | num n =>
      refine stays fun c mem => isBlank_of_isNumeral ?_
      cases n with
      | int i => exact FloatLayout.isNumeral_of_mem_integer i c mem
      | float x => exact Number.layout.isNumeral_of_mem_render x c mem
  | str s =>
      by_cases bare : isPlainNumber (Text.trim s.toList) = true
      · have added : withUnit (.str s) = .str (String.ofList (Text.trim s.toList ++ unit)) := by
          simp only [withUnit, bare, if_true]
        rw [added]
        refine stays fun c mem => isBlank_of_isNumeral ?_
        rw [isPlainNumber, Bool.and_eq_true, Bool.and_eq_true, List.all_eq_true] at bare
        have digit := bare.1.2 c mem
        rw [Bool.or_eq_true] at digit
        rcases digit with digit | point
        · simp [FloatLayout.isNumeral, digit]
        · simp [FloatLayout.isNumeral, point]
      · simp only [withUnit, bare, String.toList_ofList, Text.trim_trim, Bool.false_eq_true,
          if_false]
  | null => rfl
  | bool b => rfl
  | arr items => rfl
  | obj members => rfl

theorem sanitize_sanitize (payload : Object) : sanitize (sanitize payload) = sanitize payload := by
  unfold sanitize
  rw [List.map_map]
  refine List.map_congr_left fun (key, value) _ => ?_
  by_cases isField : fields.contains key = true
  · simp only [Function.comp_apply, if_pos isField, withUnit_withUnit]
  · simp only [Function.comp_apply, if_neg isField]

end Layout

/-! ## Texts or defaults -/

namespace Text

/-- An end of a text that is trimmed at its end is trimmed there, too. -/
theorem trimEnd_eq_self_of_suffix {s t : List Char} (ended : trimEnd s = s) (isEnd : t <:+ s) :
    trimEnd t = t := by
  rw [trimEnd, dropEnd_eq_rdropWhile, List.rdropWhile_eq_self_iff] at ended ⊢
  intro nonempty
  obtain ⟨front, rfl⟩ := isEnd
  have last := ended (List.append_ne_nil_of_right_ne_nil front nonempty)
  rwa [List.getLast_append_of_ne_nil _ nonempty] at last

end Text

namespace Loop

variable {default : String} {change : List Char → List Char}

theorem textOr_str (default : String) (change : List Char → List Char) (s : String) :
    textOr default change (some (.str s)) =
      if change s.toList = [] then default else String.ofList (change s.toList) := by
  rw [textOr, nonempty?]
  by_cases gone : change s.toList = [] <;> simp [gone]

/-- The text of a value is the default, or a text with the change made. -/
theorem textOr_cases (default : String) (change : List Char → List Char) (value : Option Json) :
    textOr default change value = default ∨
      ∃ s, textOr default change value = String.ofList (change s) := by
  unfold textOr
  split
  · rename_i s
    by_cases gone : change s.toList = []
    · simp [nonempty?, gone]
    · exact .inr ⟨s.toList, by simp [nonempty?, gone]⟩
  · exact .inl rfl

theorem textOr_ne_empty (filled : default ≠ "") (value : Option Json) :
    textOr default change value ≠ "" := by
  unfold textOr
  split
  · rename_i s
    by_cases gone : change s.toList = []
    · simpa [nonempty?, gone] using filled
    · simp [nonempty?, gone]
  · exact filled

/-- A text is read as itself exactly if the change does nothing to it. -/
theorem textOr_str_eq_self_iff (fixed : change default.toList = default.toList) {s : String}
    (filled : s ≠ "") :
    textOr default change (some (.str s)) = s ↔ change s.toList = s.toList := by
  rw [textOr_str]
  split
  · rename_i gone
    constructor
    · rintro rfl
      exact fixed
    · intro same
      rw [gone] at same
      exact absurd (String.toList_eq_nil_iff.1 same.symm) filled
  · rw [← String.toList_inj, String.toList_ofList]

/-! ## Names -/

/-- Dropping sigils once more does nothing unless white space stood behind them. -/
theorem dropSigils_dropSigils_iff (s : List Char) :
    dropSigils (dropSigils s) = dropSigils s ↔
      ∀ c ∈ (dropSigils s).head?, Text.isBlank c = false := by
  have ended : Text.trimEnd (dropSigils s) = dropSigils s :=
    Text.trimEnd_eq_self_of_suffix (Text.trimEnd_trim s) (List.dropWhile_suffix _)
  constructor
  · intro same c first
    by_contra blank
    rw [Bool.not_eq_false] at blank
    obtain ⟨rest, shape⟩ : ∃ rest, dropSigils s = c :: rest := List.head?_eq_some_iff.1 first
    have skipped : Text.trim (c :: rest) = Text.trim rest := by
      rw [Text.trim, Text.trimStart, List.dropWhile_cons_of_pos blank]
      rfl
    have shorter : (dropSigils (c :: rest)).length ≤ rest.length := by
      rw [dropSigils, skipped]
      exact (List.dropWhile_suffix _).length_le.trans (Text.infix_trim rest).length_le
    rw [shape] at same
    rw [same, List.length_cons] at shorter
    omega
  · intro solid
    cases shape : dropSigils s with
    | nil => rfl
    | cons c rest =>
        rw [shape] at ended solid
        rw [dropSigils, Text.trim_eq_self (solid c rfl) ended, ← shape, dropSigils,
          List.dropWhile_idempotent]

/-! ## Loops -/

/-- The further data of a loop has none of the names that a loop reads. -/
theorem apart_ofPayload (payload : Object) :
    ∀ member ∈ (ofPayload payload).extra, member.1 ∉ ["from", "source", "as"] := by
  intro member mem
  have key := List.mem_map_of_mem (f := (·.1)) mem
  rw [ofPayload, Layout.keys_sanitize, Object.erase_eq_without, Object.erase_eq_without,
    Object.erase_eq_without, Object.without_without, Object.without_without] at key
  obtain ⟨other, kept, same⟩ := List.mem_map.1 key
  rw [← same]
  exact (Object.mem_without_iff.1 kept).2

/-- The further data that a loop is written with are those that are read of it. -/
theorem extra_ofPayload_toPayload (payload : Object) :
    (ofPayload (Frame.toPayload (.each (ofPayload payload)))).extra =
      (ofPayload payload).extra := by
  set loop := ofPayload payload with read
  have rest : (((Frame.toPayload (.each loop)).erase "from").erase "source").erase "as" =
      loop.extra := by
    rw [Frame.toPayload, Object.erase_eq_without, Object.erase_eq_without, Object.erase_eq_without,
      Object.without_without, Object.without_without, Object.without_insert (by decide),
      Object.without_insert (by decide)]
    exact Object.without_eq_self (apart_ofPayload payload)
  have settled : Layout.sanitize loop.extra = loop.extra := Layout.sanitize_sanitize _
  rw [ofPayload]
  simp only [rest, settled]

/--
A loop that is written is read with the same source and the same further data, the
lengths among which have their units already.  It is read with the same name, too,
and so as itself, exactly if the name does not start with white space.
-/
theorem ofPayload_toPayload_iff (payload : Object) :
    let loop := ofPayload payload
    let again := ofPayload (Frame.toPayload (.each loop))
    again.source = loop.source ∧ again.extra = loop.extra ∧
      Layout.sanitize loop.extra = loop.extra ∧
      (again = loop ↔ ∀ c ∈ loop.name.toList.head?, Text.isBlank c = false) := by
  intro loop again
  have given : again.source = textOr defaultSource Text.trim (some (.str loop.source)) ∧
      again.name = textOr defaultName dropSigils (some (.str loop.name)) := by
    simp only [again, ofPayload, Frame.toPayload, Object.get?_insert, String.reduceEq, if_true,
      if_false, and_self]
  have source : again.source = loop.source := by
    have filled : loop.source ≠ "" := textOr_ne_empty (by decide) _
    rw [given.1, textOr_str_eq_self_iff (by decide) filled]
    have sources : loop.source = defaultSource ∨ ∃ s, loop.source = String.ofList (Text.trim s) :=
      textOr_cases _ _ _
    rcases sources with isDefault | ⟨s, same⟩
    · rw [isDefault]
      decide
    · rw [same, String.toList_ofList, Text.trim_trim]
  have extra : again.extra = loop.extra := extra_ofPayload_toPayload payload
  have name : again.name = loop.name ↔ ∀ c ∈ loop.name.toList.head?, Text.isBlank c = false := by
    have filled : loop.name ≠ "" := textOr_ne_empty (by decide) _
    rw [given.2, textOr_str_eq_self_iff (by decide) filled]
    have names : loop.name = defaultName ∨ ∃ s, loop.name = String.ofList (dropSigils s) :=
      textOr_cases _ _ _
    rcases names with isDefault | ⟨s, same⟩
    · rw [isDefault]
      exact iff_of_true rfl (by rintro c ⟨⟩; rfl)
    · rw [same, String.toList_ofList, dropSigils_dropSigils_iff]
  refine ⟨source, extra, Layout.sanitize_sanitize _, ?_⟩
  rw [← name]
  constructor
  · intro same
    rw [same]
  · intro same
    calc again = ⟨again.source, again.name, again.extra⟩ := rfl
      _ = loop := by rw [source, same, extra]

/-- White space between the sigils and the name stays in the name, and is trimmed when the loop
is read again. -/
theorem not_ofPayload_toPayload_of_blank :
    ¬ ∀ payload, ofPayload (Frame.toPayload (.each (ofPayload payload))) = ofPayload payload := by
  intro all
  have name : (ofPayload (Frame.toPayload (.each (ofPayload [("as", .str "$ x")])))).name =
      (ofPayload [("as", .str "$ x")]).name := by rw [all]
  exact absurd name (by decide +kernel)

end Loop

end UiMarkdown
