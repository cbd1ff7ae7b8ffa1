import Mathlib.Data.List.TakeWhile
import UiMarkdown.Proofs.Text.Trim
import UiMarkdown.Template.Reference

/-!
# The grammar of references

A spelling is a derivation of the grammar, kept as data: an identifier and the steps
behind it, each with the way it is written.  The reader takes the longest run it can
and never goes back.  No spelling is lost by that, because each step ends where the
next one starts, with a point or a bracket, and neither stands in an identifier.  A
text is read exactly when it is the text of a spelling, and no other one has that text.
-/

namespace UiMarkdown

namespace Reference

/-! ## Spellings -/

/-- One or more decimal digits of a number of 64 bits. -/
structure IsInteger (digits : List Char) : Prop where
  nonempty : digits ≠ []
  isDigit : ∀ c ∈ digits, c.isDigit = true
  fits : Literal.digitsValue digits < Nat.pow 2 64

/-- One or more characters of identifiers, the first of them no digit. -/
structure IsBareWord (word : List Char) : Prop where
  nonempty : word ≠ []
  isChar : ∀ c ∈ word, isIdentifierChar c = true
  start : ∀ c ∈ word.head?, c.isDigit = false

inductive Step where
  | name (text : List Char) (isName : isIdentifier text = true)
  | number (digits : List Char) (isNumber : IsInteger digits)
  | index (digits : List Char) (isNumber : IsInteger digits)
  | quoted (quote : Char) (isQuote : quote = '"' ∨ quote = '\'') (text : List Char)
      (apart : quote ∉ text)
  | word (text : List Char) (isWord : IsBareWord text)

namespace Step

def text : Step → List Char
  | .name text _ => '.' :: text
  | .number digits _ => '.' :: digits
  | .index digits _ => '[' :: (digits ++ [']'])
  | .quoted quote _ text _ => '[' :: quote :: (text ++ [quote, ']'])
  | .word text _ => '[' :: (text ++ [']'])

/-- What a step leads to: an integer is an index, everything else a key. -/
def segment : Step → Segment
  | .name text _ | .quoted _ _ text _ | .word text _ => .key (String.ofList text)
  | .number digits _ | .index digits _ => .index (Literal.digitsValue digits)

theorem text_ne_nil (step : Step) : step.text ≠ [] := by
  cases step <;> simp [text]

end Step

/-- A reference as it is written: an identifier and the steps behind it. -/
structure Spelling where
  root : List Char
  isRoot : isIdentifier root = true
  steps : List Step

namespace Spelling

def text (spelling : Spelling) : List Char :=
  spelling.root ++ spelling.steps.flatMap Step.text

def reference (spelling : Spelling) : Reference :=
  ⟨String.ofList spelling.root, spelling.steps.map Step.segment⟩

end Spelling

/-! ## Characters -/

theorem isDigit_of_isIdentifierStart {c : Char} (starts : isIdentifierStart c = true) :
    c.isDigit = false := by
  have bounds : 'A'.val.toNat = 65 ∧ 'Z'.val.toNat = 90 ∧ 'a'.val.toNat = 97 ∧
      'z'.val.toNat = 122 ∧ '0'.val.toNat = 48 ∧ '9'.val.toNat = 57 := by decide
  rw [isIdentifierStart, Bool.or_eq_true, beq_iff_eq] at starts
  rcases starts with letter | rfl
  · have letters : c.isAlpha = (decide (c.val ≥ 'A'.val ∧ c.val ≤ 'Z'.val) ||
        (decide (c.val ≥ 'a'.val) && decide (c.val ≤ 'z'.val))) := rfl
    have digits : c.isDigit = (decide (c.val ≥ '0'.val) && decide (c.val ≤ '9'.val)) := rfl
    simp only [letters, UInt32.le_iff_toNat_le, ge_iff_le, Bool.or_eq_true, Bool.and_eq_true,
      decide_eq_true_eq, bounds] at letter
    simp only [digits, UInt32.le_iff_toNat_le, ge_iff_le, Bool.and_eq_false_iff,
      decide_eq_false_iff_not, bounds]
    omega
  · rfl

theorem isIdentifierChar_of_isIdentifierStart {c : Char} (starts : isIdentifierStart c = true) :
    isIdentifierChar c = true := by
  rw [isIdentifierStart, Bool.or_eq_true] at starts
  rcases starts with letter | underscore
  · simp [isIdentifierChar, Char.isAlphanum, letter]
  · simp [isIdentifierChar, underscore]

theorem isIdentifierChar_of_isDigit {c : Char} (digit : c.isDigit = true) :
    isIdentifierChar c = true := by
  simp [isIdentifierChar, Char.isAlphanum, digit]

/-- Quotes do not stand in identifiers. -/
theorem isQuote_of_isIdentifierChar {c : Char} (isChar : isIdentifierChar c = true) :
    (c == '"' || c == '\'') = false := by
  rw [Bool.eq_false_iff, ne_eq, Bool.or_eq_true, beq_iff_eq, beq_iff_eq]
  rintro (rfl | rfl) <;> revert isChar <;> decide

theorem isIdentifier_iff {text : List Char} :
    isIdentifier text = true ↔ text ≠ [] ∧ (∀ c ∈ text.head?, isIdentifierStart c = true) ∧
      ∀ c ∈ text, isIdentifierChar c = true := by
  cases text with
  | nil => simp [isIdentifier]
  | cons c rest =>
      rw [isIdentifier, Bool.and_eq_true, List.all_eq_true]
      constructor
      · rintro ⟨starts, goesOn⟩
        refine ⟨List.cons_ne_nil c rest, ?_, ?_⟩
        · rintro d ⟨⟩
          exact starts
        · exact List.forall_mem_cons.2 ⟨isIdentifierChar_of_isIdentifierStart starts, goesOn⟩
      · rintro ⟨-, starts, goesOn⟩
        exact ⟨starts c rfl, (List.forall_mem_cons.1 goesOn).2⟩

theorem exists_cons_of_isIdentifier {name : List Char} (isName : isIdentifier name = true) :
    ∃ c more, name = c :: more ∧ c.isDigit = false := by
  obtain ⟨nonempty, starts, -⟩ := isIdentifier_iff.1 isName
  obtain ⟨c, more, rfl⟩ := List.exists_cons_of_ne_nil nonempty
  exact ⟨c, more, rfl, isDigit_of_isIdentifierStart (starts c rfl)⟩

theorem IsInteger.exists_cons {digits : List Char} (isNumber : IsInteger digits) :
    ∃ c more, digits = c :: more ∧ c.isDigit = true := by
  obtain ⟨c, more, rfl⟩ := List.exists_cons_of_ne_nil isNumber.nonempty
  exact ⟨c, more, rfl, isNumber.isDigit c List.mem_cons_self⟩

theorem IsBareWord.exists_cons {word : List Char} (isWord : IsBareWord word) :
    ∃ c more, word = c :: more ∧ c.isDigit = false ∧ isIdentifierChar c = true := by
  obtain ⟨c, more, rfl⟩ := List.exists_cons_of_ne_nil isWord.nonempty
  exact ⟨c, more, rfl, isWord.start c rfl, isWord.isChar c List.mem_cons_self⟩

/-! ## Runs -/

/-- A text is empty or starts with a character that does not satisfy `p`. -/
def StopsAt (p : Char → Bool) (s : List Char) : Prop :=
  ∀ c ∈ s.head?, p c = false

theorem StopsAt.imp {p q : Char → Bool} {s : List Char} (stops : StopsAt p s)
    (weaker : ∀ c, q c = true → p c = true) : StopsAt q s := by
  intro c isHead
  rw [Bool.eq_false_iff]
  intro holds
  exact Bool.false_ne_true ((stops c isHead).symm.trans (weaker c holds))

theorem stopsAt_cons {p : Char → Bool} {c : Char} (stop : p c = false) (s : List Char) :
    StopsAt p (c :: s) := by
  rintro d ⟨⟩
  exact stop

/-- A run goes up to the first character that does not satisfy `p`. -/
theorem takeRun_append {p : Char → Bool} {run rest : List Char}
    (inside : ∀ c ∈ run, p c = true) (stops : StopsAt p rest) :
    takeRun p (run ++ rest) = (run, rest) := by
  have next : rest.takeWhile p = [] ∧ rest.dropWhile p = rest := by
    cases rest with
    | nil => exact ⟨rfl, rfl⟩
    | cons c rest =>
        have stop : ¬ p c = true := Bool.eq_false_iff.1 (stops c rfl)
        exact ⟨List.takeWhile_cons_of_neg stop, List.dropWhile_cons_of_neg stop⟩
  rw [takeRun, List.takeWhile_append_of_pos inside, List.dropWhile_append_of_pos inside, next.1,
    next.2, List.append_nil]

/-- What stands before a quote is a run. -/
theorem takeRun_quote {quote : Char} {text : List Char} (apart : quote ∉ text) (rest : List Char) :
    takeRun (· != quote) (text ++ quote :: rest) = (text, quote :: rest) := by
  apply takeRun_append
  · intro c mem
    rw [bne_iff_ne]
    rintro rfl
    exact apart mem
  · rintro c ⟨⟩
    exact bne_self_eq_false quote

/-- A text is a run and what is left behind it. -/
theorem of_takeRun_eq {p : Char → Bool} {s run rest : List Char}
    (taken : takeRun p s = (run, rest)) : s = run ++ rest ∧ ∀ c ∈ run, p c = true := by
  obtain ⟨rfl, rfl⟩ := Prod.mk.inj taken
  exact ⟨List.takeWhile_append_dropWhile.symm, fun c mem => List.mem_takeWhile_imp mem⟩

/-! ## Identifiers and integers -/

theorem readIdentifier?_append {name rest : List Char} (isName : isIdentifier name = true)
    (stops : StopsAt isIdentifierChar rest) :
    readIdentifier? (name ++ rest) = some (String.ofList name, rest) := by
  obtain ⟨nonempty, starts, isChar⟩ := isIdentifier_iff.1 isName
  obtain ⟨c, more, rfl⟩ := List.exists_cons_of_ne_nil nonempty
  have run := takeRun_append isChar stops
  rw [List.cons_append] at run ⊢
  rw [readIdentifier?, if_pos (starts c rfl), run]

theorem exists_of_readIdentifier? {s rest : List Char} {name : String}
    (read : readIdentifier? s = some (name, rest)) :
    ∃ text, isIdentifier text = true ∧ name = String.ofList text ∧ s = text ++ rest := by
  cases s with
  | nil => cases read
  | cons c more =>
      rw [readIdentifier?] at read
      split at read
      · rename_i starts
        have isChar := isIdentifierChar_of_isIdentifierStart starts
        cases read
        refine ⟨c :: more.takeWhile isIdentifierChar, ?_, ?_, ?_⟩
        · rw [isIdentifier, Bool.and_eq_true]
          exact ⟨starts, List.all_takeWhile⟩
        · rw [List.takeWhile_cons_of_pos isChar]
        · rw [List.dropWhile_cons_of_pos isChar, List.cons_append, List.takeWhile_append_dropWhile]
      · cases read

theorem nat?_eq_some_iff {digits : List Char} {n : Nat} (isDigit : ∀ c ∈ digits, c.isDigit = true) :
    Literal.nat? digits = some n ↔ IsInteger digits ∧ n = Literal.digitsValue digits := by
  have unsigned : ∀ rest, digits ≠ '+' :: rest := by
    rintro rest rfl
    exact absurd (isDigit '+' List.mem_cons_self) (by decide)
  have all : Literal.allDigits digits = true ↔ digits ≠ [] := by
    rw [Literal.allDigits, List.all_eq_true.2 isDigit, Bool.and_true]
    simp
  have holds : (Literal.allDigits digits &&
      decide (Literal.digitsValue digits < Nat.pow 2 64)) = true ↔ IsInteger digits := by
    rw [Bool.and_eq_true, all, decide_eq_true_eq]
    constructor
    · rintro ⟨nonempty, fits⟩
      exact ⟨nonempty, isDigit, fits⟩
    · intro isNumber
      exact ⟨isNumber.nonempty, isNumber.fits⟩
  rw [Literal.nat?, Option.ite_none_right_eq_some, holds, Option.some_inj, eq_comm (a := n)]
  exact unsigned

theorem readIndex?_append {digits rest : List Char} (isNumber : IsInteger digits)
    (stops : StopsAt Char.isDigit rest) :
    readIndex? (digits ++ rest) = some (Literal.digitsValue digits, rest) := by
  have value := (nat?_eq_some_iff isNumber.isDigit).2 ⟨isNumber, rfl⟩
  simp [readIndex?, takeRun_append isNumber.isDigit stops, value]

theorem exists_of_readIndex? {s rest : List Char} {n : Nat}
    (read : readIndex? s = some (n, rest)) :
    ∃ digits, IsInteger digits ∧ n = Literal.digitsValue digits ∧ s = digits ++ rest := by
  rw [readIndex?] at read
  generalize taken : takeRun Char.isDigit s = run at read
  obtain ⟨digits, left⟩ := run
  obtain ⟨whole, isDigit⟩ := of_takeRun_eq taken
  obtain ⟨value, isValue, same⟩ := Option.map_eq_some_iff.1 read
  cases same
  obtain ⟨isNumber, rfl⟩ := (nat?_eq_some_iff isDigit).1 isValue
  exact ⟨digits, isNumber, rfl, whole⟩

/-! ## Steps that are written are read -/

/-- Steps start with no character of identifiers. -/
theorem stopsAt_flatMap_text (steps : List Step) :
    StopsAt isIdentifierChar (steps.flatMap Step.text) := by
  cases steps with
  | nil => rintro c ⟨⟩
  | cons step more => cases step <;> exact stopsAt_cons (by decide) _

/-- A step is read off the text that starts with it. -/
theorem readSegment?_text_append (step : Step) {rest : List Char}
    (stops : StopsAt isIdentifierChar rest) :
    readSegment? (step.text ++ rest) = some (step.segment, rest) := by
  have bracket {p : Char → Bool} (apart : p ']' = false) : StopsAt p (']' :: rest) :=
    stopsAt_cons apart rest
  cases step with
  | name name isName =>
      have read := readIdentifier?_append isName stops
      obtain ⟨c, more, rfl, noDigit⟩ := exists_cons_of_isIdentifier isName
      rw [List.cons_append] at read
      simp [Step.text, Step.segment, readSegment?, noDigit, read]
  | number digits isNumber =>
      have read := readIndex?_append isNumber (stops.imp fun _ => isIdentifierChar_of_isDigit)
      obtain ⟨c, more, rfl, digit⟩ := isNumber.exists_cons
      rw [List.cons_append] at read
      simp [Step.text, Step.segment, readSegment?, digit, read]
  | index digits isNumber =>
      have read := readIndex?_append isNumber (bracket (p := Char.isDigit) rfl)
      obtain ⟨c, more, rfl, digit⟩ := isNumber.exists_cons
      have noQuote := isQuote_of_isIdentifierChar (isIdentifierChar_of_isDigit digit)
      rw [List.cons_append] at read
      rw [Step.text, List.cons_append, List.append_assoc, List.singleton_append, List.cons_append,
        readSegment?, readBracket?, noQuote, if_neg Bool.false_ne_true, if_pos digit, read]
      rfl
  | quoted quote isQuote name apart =>
      have isQuote : (quote == '"' || quote == '\'') = true := by
        rcases isQuote with rfl | rfl <;> rfl
      rw [Step.text, List.cons_append, List.cons_append, List.append_assoc, List.cons_append,
        List.singleton_append, readSegment?, readBracket?, if_pos isQuote, takeRun_quote apart]
      rfl
  | word word isWord =>
      have run := takeRun_append isWord.isChar (bracket (p := isIdentifierChar) rfl)
      obtain ⟨c, more, rfl, noDigit, isChar⟩ := isWord.exists_cons
      rw [List.cons_append] at run
      rw [Step.text, List.cons_append, List.append_assoc, List.singleton_append, List.cons_append,
        readSegment?, readBracket?, isQuote_of_isIdentifierChar isChar, if_neg Bool.false_ne_true,
        noDigit, if_neg Bool.false_ne_true, run]
      rfl

theorem length_le_length_flatMap_text (steps : List Step) :
    steps.length ≤ (steps.flatMap Step.text).length := by
  induction steps with
  | nil => exact Nat.le_refl 0
  | cons step more ih =>
      have positive := List.length_pos_iff.2 step.text_ne_nil
      rw [List.flatMap_cons, List.length_append, List.length_cons]
      omega

theorem readSegments?_flatMap_text {steps : List Step} {fuel : Nat} (enough : steps.length ≤ fuel) :
    readSegments? fuel (steps.flatMap Step.text) = some (steps.map Step.segment) := by
  induction steps generalizing fuel with
  | nil => cases fuel <;> rfl
  | cons step more ih =>
      rw [List.length_cons] at enough
      obtain ⟨fuel, rfl⟩ : ∃ n, fuel = n + 1 := ⟨fuel - 1, by omega⟩
      have first := readSegment?_text_append step (stopsAt_flatMap_text more)
      obtain ⟨c, text, split⟩ := List.exists_cons_of_ne_nil step.text_ne_nil
      rw [split, List.cons_append] at first
      have later := ih (Nat.le_of_succ_le_succ enough)
      rw [List.flatMap_cons, split, List.cons_append, readSegments?, first]
      · simp [later]
      · exact List.cons_ne_nil _ _

/-! ## Steps that are read are written -/

/-- What is read behind a bracket is a step, up to the bracket that closes it. -/
theorem exists_of_readBracket? {s rest : List Char} {segment : Segment}
    (read : readBracket? s = some (segment, rest)) :
    ∃ (step : Step) (inner : List Char), s = inner ++ rest ∧ step.text = '[' :: (inner ++ [']']) ∧
      step.segment = segment := by
  cases s with
  | nil => cases read
  | cons c more =>
      rw [readBracket?] at read
      split at read
      · rename_i isQuote
        rw [Bool.or_eq_true, beq_iff_eq, beq_iff_eq] at isQuote
        split at read
        · rename_i name last after taken
          cases read
          obtain ⟨whole, inside⟩ := of_takeRun_eq taken
          have apart : c ∉ name := fun mem => by simpa using inside c mem
          obtain rfl : last = c := by
            have stop := List.head?_dropWhile_not (· != c) more
            rw [show more.dropWhile (· != c) = last :: rest from congrArg Prod.snd taken] at stop
            exact bne_eq_false_iff_eq.1 stop
          refine ⟨.quoted last isQuote name apart, last :: (name ++ [last]), ?_, ?_, rfl⟩
          · simp [whole]
          · simp [Step.text]
        · cases read
      · split at read
        · obtain ⟨⟨n, left⟩, isIndex, same⟩ := Option.map_eq_some_iff.1 read
          cases same
          obtain ⟨digits, isNumber, rfl, whole⟩ := exists_of_readIndex? isIndex
          exact ⟨.index digits isNumber, digits, whole, rfl, rfl⟩
        · rename_i noDigit
          split at read
          · cases read
          · rename_i word left nonempty taken
            cases read
            obtain ⟨whole, isChar⟩ := of_takeRun_eq taken
            have start : ∀ d ∈ word.head?, d.isDigit = false := by
              obtain ⟨d, tail, rfl⟩ := List.exists_cons_of_ne_nil nonempty
              rw [List.cons_append, List.cons.injEq] at whole
              rintro e ⟨⟩
              rw [← whole.1]
              exact Bool.eq_false_iff.2 noDigit
            exact ⟨.word word ⟨nonempty, isChar, start⟩, word, whole, rfl, rfl⟩

theorem exists_of_readSegment? {s rest : List Char} {segment : Segment}
    (read : readSegment? s = some (segment, rest)) :
    ∃ step : Step, s = step.text ++ rest ∧ step.segment = segment := by
  rw [readSegment?.eq_def] at read
  split at read
  · split at read
    · cases read
    · split at read
      · obtain ⟨⟨n, left⟩, isIndex, same⟩ := Option.map_eq_some_iff.1 read
        cases same
        obtain ⟨digits, isNumber, rfl, whole⟩ := exists_of_readIndex? isIndex
        exact ⟨.number digits isNumber, congrArg ('.' :: ·) whole, rfl⟩
      · obtain ⟨⟨name, left⟩, isName, same⟩ := Option.map_eq_some_iff.1 read
        cases same
        obtain ⟨text, isIdentifier, rfl, whole⟩ := exists_of_readIdentifier? isName
        exact ⟨.name text isIdentifier, congrArg ('.' :: ·) whole, rfl⟩
  · split at read
    · rename_i bracket
      cases read
      obtain ⟨step, inner, whole, text, same⟩ := exists_of_readBracket? bracket
      refine ⟨step, ?_, same⟩
      simp [text, whole]
    · cases read
  · cases read

theorem exists_of_readSegments? {fuel : Nat} {s : List Char} {segments : List Segment}
    (read : readSegments? fuel s = some segments) :
    ∃ steps : List Step, s = steps.flatMap Step.text ∧ steps.map Step.segment = segments := by
  induction fuel generalizing s segments with
  | zero =>
      cases s with
      | nil =>
          cases read
          exact ⟨[], rfl, rfl⟩
      | cons c rest => cases read
  | succ fuel ih =>
      cases s with
      | nil =>
          cases read
          exact ⟨[], rfl, rfl⟩
      | cons c rest =>
          rw [readSegments?] at read
          · split at read
            · rename_i segment left first
              obtain ⟨more, isMore, rfl⟩ := Option.map_eq_some_iff.1 read
              obtain ⟨step, whole, rfl⟩ := exists_of_readSegment? first
              obtain ⟨steps, rfl, rfl⟩ := ih isMore
              exact ⟨step :: steps, whole, rfl⟩
            · cases read
          · exact List.cons_ne_nil c rest

/-- A text is read as a reference exactly when it is the text of a spelling of it. -/
theorem ofChars?_eq_some_iff {s : List Char} {reference : Reference} :
    ofChars? s = some reference ↔
      ∃ spelling : Spelling, spelling.text = s ∧ spelling.reference = reference := by
  constructor
  · intro read
    rw [ofChars?] at read
    split at read
    · rename_i root rest isRoot
      obtain ⟨segments, isPath, rfl⟩ := Option.map_eq_some_iff.1 read
      obtain ⟨text, isIdentifier, rfl, whole⟩ := exists_of_readIdentifier? isRoot
      obtain ⟨steps, rfl, rfl⟩ := exists_of_readSegments? isPath
      exact ⟨⟨text, isIdentifier, steps⟩, whole.symm, rfl⟩
    · cases read
  · rintro ⟨⟨root, isRoot, steps⟩, rfl, rfl⟩
    have first := readIdentifier?_append isRoot (stopsAt_flatMap_text steps)
    have path := readSegments?_flatMap_text (length_le_length_flatMap_text steps)
    rw [Spelling.text, ofChars?, first]
    dsimp only
    rw [path]
    rfl

/-! ## No text has two spellings -/

theorem IsInteger.ne_of_isIdentifier {digits name : List Char} (isNumber : IsInteger digits)
    (isName : isIdentifier name = true) : digits ≠ name := by
  rintro rfl
  obtain ⟨c, more, rfl, digit⟩ := isNumber.exists_cons
  obtain ⟨d, others, split, noDigit⟩ := exists_cons_of_isIdentifier isName
  rw [← (List.cons.inj split).1, digit] at noDigit
  cases noDigit

theorem IsInteger.ne_of_isBareWord {digits word : List Char} (isNumber : IsInteger digits)
    (isWord : IsBareWord word) : digits ≠ word := by
  rintro rfl
  obtain ⟨c, more, rfl, digit⟩ := isNumber.exists_cons
  exact Bool.false_ne_true ((isWord.start c rfl).symm.trans digit)

/-- A quoted name starts with a character that starts no other index. -/
theorem cons_append_ne_of_isQuote {quote c : Char} {more name : List Char}
    (isQuote : quote = '"' ∨ quote = '\'') (isChar : isIdentifierChar c = true) :
    c :: (more ++ [']']) ≠ quote :: (name ++ [quote, ']']) := by
  intro same
  have noQuote := isQuote_of_isIdentifierChar isChar
  rw [(List.cons.inj same).1] at noQuote
  rcases isQuote with rfl | rfl <;> cases noQuote

/-- The text of a step tells how it is written. -/
theorem Step.eq_of_text_eq {a b : Step} (same : a.text = b.text) : a = b := by
  have dotted {s t : List Char} : '.' :: s ≠ '[' :: t := by simp
  cases a with
  | name text isName =>
      cases b with
      | name other isOther =>
          obtain rfl := (List.cons.inj same).2
          rfl
      | number digits isNumber =>
          exact absurd (List.cons.inj same).2.symm (isNumber.ne_of_isIdentifier isName)
      | _ => exact absurd same dotted
  | number digits isNumber =>
      cases b with
      | name text isName =>
          exact absurd (List.cons.inj same).2 (isNumber.ne_of_isIdentifier isName)
      | number other isOther =>
          obtain rfl := (List.cons.inj same).2
          rfl
      | _ => exact absurd same dotted
  | index digits isNumber =>
      cases b with
      | index other isOther =>
          obtain rfl := List.append_cancel_right (List.cons.inj same).2
          rfl
      | quoted quote isQuote text apart =>
          obtain ⟨c, more, rfl, digit⟩ := isNumber.exists_cons
          exact absurd (List.cons.inj same).2
            (cons_append_ne_of_isQuote isQuote (isIdentifierChar_of_isDigit digit))
      | word word isWord =>
          exact absurd (List.append_cancel_right (List.cons.inj same).2)
            (isNumber.ne_of_isBareWord isWord)
      | _ => exact absurd same.symm dotted
  | quoted quote isQuote text apart =>
      cases b with
      | index digits isNumber =>
          obtain ⟨c, more, rfl, digit⟩ := isNumber.exists_cons
          exact absurd (List.cons.inj same).2.symm
            (cons_append_ne_of_isQuote isQuote (isIdentifierChar_of_isDigit digit))
      | quoted other isOther name apart' =>
          obtain ⟨-, rest⟩ := List.cons.inj same
          obtain ⟨rfl, rest⟩ := List.cons.inj rest
          obtain rfl := List.append_cancel_right rest
          rfl
      | word word isWord =>
          obtain ⟨c, more, rfl, -, isChar⟩ := isWord.exists_cons
          exact absurd (List.cons.inj same).2.symm (cons_append_ne_of_isQuote isQuote isChar)
      | _ => exact absurd same.symm dotted
  | word word isWord =>
      cases b with
      | index digits isNumber =>
          exact absurd (List.append_cancel_right (List.cons.inj same).2).symm
            (isNumber.ne_of_isBareWord isWord)
      | quoted quote isQuote text apart =>
          obtain ⟨c, more, rfl, -, isChar⟩ := isWord.exists_cons
          exact absurd (List.cons.inj same).2 (cons_append_ne_of_isQuote isQuote isChar)
      | word other isOther =>
          obtain rfl := List.append_cancel_right (List.cons.inj same).2
          rfl
      | _ => exact absurd same.symm dotted

/-- Of two paths with one text, reading takes the same step off both. -/
theorem eq_of_flatMap_text_eq {a b : List Step}
    (same : a.flatMap Step.text = b.flatMap Step.text) : a = b := by
  induction a generalizing b with
  | nil =>
      cases b with
      | nil => rfl
      | cons step more =>
          rw [List.flatMap_nil, List.flatMap_cons, eq_comm, List.append_eq_nil_iff] at same
          exact absurd same.1 step.text_ne_nil
  | cons step more ih =>
      cases b with
      | nil =>
          rw [List.flatMap_nil, List.flatMap_cons, List.append_eq_nil_iff] at same
          exact absurd same.1 step.text_ne_nil
      | cons other others =>
          rw [List.flatMap_cons, List.flatMap_cons] at same
          have first := readSegment?_text_append step (stopsAt_flatMap_text more)
          rw [same, readSegment?_text_append other (stopsAt_flatMap_text others), Option.some_inj,
            Prod.mk.injEq] at first
          rw [ih first.2.symm]
          rw [first.2, List.append_left_inj] at same
          rw [Step.eq_of_text_eq same]

theorem Spelling.eq_of_text_eq {a b : Spelling} (same : a.text = b.text) : a = b := by
  obtain ⟨root, isRoot, steps⟩ := a
  obtain ⟨root', isRoot', steps'⟩ := b
  dsimp only [Spelling.text] at same
  have first := readIdentifier?_append isRoot (stopsAt_flatMap_text steps)
  rw [same, readIdentifier?_append isRoot' (stopsAt_flatMap_text steps'), Option.some_inj,
    Prod.mk.injEq] at first
  obtain rfl := eq_of_flatMap_text_eq first.2.symm
  rw [List.append_left_inj] at same
  subst same
  rfl

/--
A text is read as a reference exactly when, white space around it apart, it is the
text of a spelling of this reference; and a text has no second spelling.
-/
theorem reads_iff_spelled (text : String) :
    (∀ reference, ofText? text = some reference ↔ ∃ spelling : Spelling,
      spelling.text = Text.trim text.toList ∧ spelling.reference = reference) ∧
    ∀ a b : Spelling, a.text = b.text → a = b := by
  constructor
  · intro reference
    exact ofChars?_eq_some_iff
  · intro a b same
    exact Spelling.eq_of_text_eq same

/-- Digits stop before a letter, and neither an identifier nor a word can take them back. -/
example : ofText? "a.0b" = none ∧ ofText? "a[0b]" = none ∧
    ofText? "a[-0b]['']" = some ⟨"a", [.key "-0b", .key ""]⟩ := by
  decide +kernel

end Reference

end UiMarkdown
