import UiMarkdown.Proofs.Yaml.PlainScalar

/-!
# Reading a line of a mapping

A key, a colon, a space and a plain scalar on a line become the tokens of a
member.  The first line also opens the block of the mapping.
-/

namespace UiMarkdown

namespace Yaml

/-- Whether a token starts here, with nothing to pass over before it. -/
def AtToken (rest : List Char) : Prop :=
  ∀ c ∈ rest.head?, c ∉ ['\uFEFF', ' ', '\t', '#'] ∧ isBreak c = false

theorem AtToken.solid {rest : List Char} (at' : AtToken rest) :
    ∀ c ∈ rest.head?, isWhite c = false := by
  intro c isHead
  obtain ⟨other, unbroken⟩ := at' c isHead
  simp only [List.mem_cons, List.not_mem_nil, or_false, not_or] at other
  simp [isWhite, Text.isSpaceOrTab, other, unbroken]

/-- Three equal characters start no text that goes on with another character before the third. -/
theorem Cursor.isMarker_of_apart {s : List Char} {mark c : Char}
    (absent : [mark, mark, mark].isPrefixOf s = false) (other : c ≠ mark) (rest : List Char)
    (index line column : Nat) : isMarker ⟨s ++ c :: rest, index, line, column⟩ mark = false := by
  have apart : [mark, mark, mark].isPrefixOf (s ++ c :: rest) = false := by
    rw [Bool.eq_false_iff, ne_eq, List.isPrefixOf_iff_prefix] at absent ⊢
    intro starts
    rcases s with _ | ⟨x, _ | ⟨y, _ | ⟨z, s⟩⟩⟩ <;>
      simp only [List.nil_append, List.cons_append, List.cons_prefix_cons] at starts absent
    · exact other starts.1.symm
    · exact other starts.2.1.symm
    · exact other starts.2.2.1.symm
    · exact absent ⟨starts.1, starts.2.1, starts.2.2.1, List.nil_prefix⟩
  rw [isMarker, apart, Bool.and_false, Bool.false_and]

namespace IsPlain

variable {s : List Char}

theorem atToken (plain : IsPlain s) (rest : List Char) : AtToken (s ++ rest) := by
  obtain ⟨c, s, rfl⟩ := List.exists_cons_of_ne_nil plain.nonempty
  have printable := plain.isPrintable_of_mem List.mem_cons_self
  have unmarked := plain.unmarked
  rintro d ⟨⟩
  refine ⟨fun mem => ?_, plain.isBreak_of_mem List.mem_cons_self⟩
  simp only [List.mem_cons, List.not_mem_nil, or_false] at mem
  rcases mem with rfl | rfl | rfl | rfl
  · cases printable
  · exact plain.starts rfl
  · cases printable
  · simp [Style.hasMark] at unmarked

theorem isDocumentMarker (plain : IsPlain s) {c : Char} (other : c ≠ '-' ∧ c ≠ '.')
    (rest : List Char) (index line column : Nat) :
    Cursor.isDocumentMarker ⟨s ++ c :: rest, index, line, column⟩ = false := by
  have unmarked := plain.unmarked
  obtain ⟨d, s, rfl⟩ := List.exists_cons_of_ne_nil plain.nonempty
  simp only [Style.hasMark, Bool.or_eq_false_iff] at unmarked
  obtain ⟨⟨⟨⟨hyphens, points⟩, -⟩, -⟩, -⟩ := unmarked
  rw [Cursor.isDocumentMarker, Cursor.isMarker_of_apart hyphens other.1,
    Cursor.isMarker_of_apart points other.2]
  rfl

end IsPlain

namespace Lexer

theorem insertIdx_append (tokens more : List Token) (token : Token) :
    (tokens ++ more).insertIdx tokens.length token = tokens ++ token :: more := by
  induction tokens with
  | nil => rfl
  | cons first tokens ih =>
      rw [List.cons_append, List.length_cons, List.insertIdx_succ_cons, ih, List.cons_append]

theorem skipToToken_of_atToken {lexer : Lexer} (at' : AtToken lexer.cursor.rest) (fuel : Nat) :
    skipToToken (fuel + 1) lexer = lexer := by
  obtain ⟨⟨rest, index, line, column⟩, indent, outer, keyAllowed, key, outerKeys, tokens⟩ := lexer
  cases rest with
  | nil =>
      simp [skipToToken, Cursor.isAt, Cursor.skipWhile, Cursor.skip, Cursor.holds, Cursor.peek?,
        moveTo]
  | cons c rest =>
      obtain ⟨other, solid⟩ := at' c rfl
      simp only [List.mem_cons, List.not_mem_nil, or_false, not_or] at other
      simp [skipToToken, Cursor.isAt, Cursor.skipWhile, Cursor.skip, Cursor.holds, Cursor.peek?,
        moveTo, other, solid]

theorem skipToToken_space {lexer : Lexer} {rest : List Char} (at' : AtToken rest)
    {index line column : Nat} (isNext : lexer.cursor = ⟨' ' :: rest, index, line, column⟩)
    (fuel : Nat) :
    skipToToken (fuel + 1) lexer = lexer.moveTo ⟨rest, index + 1, line, column + 1⟩ := by
  obtain ⟨cursor, indent, outer, keyAllowed, key, outerKeys, tokens⟩ := lexer
  cases isNext
  cases rest with
  | nil =>
      simp [skipToToken, Cursor.isAt, Cursor.skipWhile, Cursor.skip, Cursor.holds, Cursor.peek?,
        moveTo]
  | cons c rest =>
      obtain ⟨other, solid⟩ := at' c rfl
      simp only [List.mem_cons, List.not_mem_nil, or_false, not_or] at other
      simp [skipToToken, Cursor.isAt, Cursor.skipWhile, Cursor.skip, Cursor.holds, Cursor.peek?,
        moveTo, other, solid]

/-- The first character of a plain text starts a plain scalar. -/
theorem token?_of_isPlain {lexer : Lexer} {c : Char} {s rest : List Char}
    (plain : IsPlain (c :: s)) (isNext : lexer.cursor.rest = c :: (s ++ rest))
    (start : lexer.cursor.isDocumentMarker = false) (block : lexer.outerKeys = []) :
    lexer.token? c = lexer.plain? := by
  have unmarked := plain.unmarked
  simp only [Style.hasMark, Bool.or_eq_false_iff] at unmarked
  obtain ⟨⟨⟨-, mark⟩, lone⟩, -⟩ := unmarked
  rw [Cursor.isDocumentMarker, Bool.or_eq_false_iff] at start
  have other : c ≠ ' ' := fun space => plain.starts (congrArg some space)
  have solid := plain.isSpaceOrTab_of_mem List.mem_cons_self other
  have whole := plain.isBreak_of_mem List.mem_cons_self
  simp only [String.reduceToList, List.contains_eq_mem, List.mem_cons, List.not_mem_nil, or_false,
    Bool.decide_or, Bool.or_eq_false_iff, decide_eq_false_iff_not] at mark
  by_cases special : c = '?' ∨ c = ':' ∨ c = '-'
  · have inside : Style.endsWord s = false := by
      rcases special with rfl | rfl | rfl <;> simpa using lone
    have noGap : lexer.cursor.isGap 1 = false := by
      have gap := Cursor.isGap_of_inside inside c rest 0 0 0
      rwa [Cursor.isGap, Cursor.peek?, ← isNext] at gap
    have noBlank : lexer.cursor.holds Text.isSpaceOrTab 1 = false := by
      rw [Cursor.isGap] at noGap
      rw [Cursor.holds]
      cases next : lexer.cursor.peek? 1 with
      | none => rfl
      | some d =>
          rw [next, Option.all_some, Bool.or_eq_false_iff] at noGap
          exact noGap.1
    rcases special with rfl | rfl | rfl <;>
      simp [token?, startsPlain, inFlow, block, start, noGap, noBlank]
  · simp only [not_or] at special
    simp [token?, startsPlain, inFlow, block, start, mark, special, solid, whole]

theorem token?_colon {lexer : Lexer} {rest : List Char}
    (isNext : lexer.cursor.rest = ':' :: ' ' :: rest) : lexer.token? ':' = lexer.value? := by
  have gap : lexer.cursor.isGap 1 = true := by
    simp [Cursor.isGap, Cursor.peek?, isNext, Text.isSpaceOrTab]
  have noMarker (d : Char) (other : d ≠ ':') : lexer.cursor.isMarker d = false := by
    simp [Cursor.isMarker, isNext, other]
  simp [token?, noMarker, gap]

theorem run?_step {lexer lexer' : Lexer} {c : Char} {rest : List Char} (fuel : Nat)
    (ready : (skipToToken (lexer.cursor.rest.length + 1) lexer).dropStaleKeys? = some lexer')
    (level : lexer'.closeBlocks lexer'.cursor.column = lexer')
    (isNext : lexer'.cursor.rest = c :: rest) :
    run? (fuel + 1) lexer = (lexer'.token? c).bind (run? fuel) := by
  rw [run?, ready]
  dsimp only
  rw [level, isNext]
  dsimp only
  cases lexer'.token? c <;> rfl

/-- Before a line: no key is possible yet, and the block may still have to be opened. -/
def atLine (rest : List Char) (index line : Nat) (opened : Bool) (tokens : List Token) : Lexer where
  cursor := ⟨rest, index, line, 0⟩
  indent := if opened then 0 else -1
  outer := if opened then [-1] else []
  tokens := tokens.toArray

/-- Behind the key of a line. -/
def atColon (rest : List Char) (index line column : Nat) (opened : Bool) (tokens : List Token)
    (key : List Char) : Lexer where
  cursor := ⟨rest, index + column, line, column⟩
  indent := if opened then 0 else -1
  outer := if opened then [-1] else []
  keyAllowed := false
  key := some { required := opened, position := tokens.length, index, line, column := 0 }
  tokens := (tokens ++ [Token.scalar key true]).toArray

/-- Behind the colon of a line. -/
def atValue (rest : List Char) (index line column : Nat) (tokens : List Token) : Lexer where
  cursor := ⟨rest, index, line, column⟩
  indent := 0
  outer := [-1]
  keyAllowed := false
  tokens := tokens.toArray

section Line

variable {k s rest : List Char}

theorem plain?_atLine (plain : IsPlain k) (rest : List Char) (index line : Nat) (opened : Bool)
    (tokens : List Token) :
    (atLine (k ++ ':' :: ' ' :: rest) index line opened tokens).plain? =
      some (atColon (':' :: ' ' :: rest) index line k.length opened tokens k) := by
  have remembered : (atLine (k ++ ':' :: ' ' :: rest) index line opened tokens).rememberKey? =
      some { atLine (k ++ ':' :: ' ' :: rest) index line opened tokens with
        key := some {
          required := opened, position := tokens.length, index, line, column := 0 } } := by
    cases opened <;> rfl
  have start := plain.isDocumentMarker (by decide : ':' ≠ '-' ∧ ':' ≠ '.') (' ' :: rest) index
    line 0
  have enough : k.length ≤ (k ++ ':' :: ' ' :: rest).length + 1 :=
    Nat.le_succ_of_le (List.prefix_append k _).length_le
  have inside : ((if opened then (0 : Int) else -1) + 1).toNat ≤ 0 + 1 := by
    cases opened <;> decide
  have read := Cursor.plain?_key plain.isWords start inside enough
  rw [plain?, remembered]
  change Option.bind (Cursor.plain? false ((if opened then (0 : Int) else -1) + 1).toNat
    ((k ++ ':' :: ' ' :: rest).length + 1) [] {} ⟨k ++ ':' :: ' ' :: rest, index, line, 0⟩) _ = _
  rw [read]
  simp [atLine, atColon, moveTo, push, allowKey]

theorem run?_atLine (plain : IsPlain k) (rest : List Char) (index line : Nat) (opened : Bool)
    (tokens : List Token) (fuel : Nat) :
    run? (fuel + 1) (atLine (k ++ ':' :: ' ' :: rest) index line opened tokens) =
      run? fuel (atColon (':' :: ' ' :: rest) index line k.length opened tokens k) := by
  have at' := plain.atToken (':' :: ' ' :: rest)
  have start := plain.isDocumentMarker (by decide : ':' ≠ '-' ∧ ':' ≠ '.') (' ' :: rest) index
    line 0
  have read := plain?_atLine plain rest index line opened tokens
  obtain ⟨c, k', rfl⟩ := List.exists_cons_of_ne_nil plain.nonempty
  generalize before : atLine (c :: k' ++ ':' :: ' ' :: rest) index line opened tokens = lexer
    at read ⊢
  have isNext : lexer.cursor.rest = c :: (k' ++ ':' :: ' ' :: rest) := by rw [← before]; rfl
  have marker : lexer.cursor.isDocumentMarker = false := by rw [← before]; exact start
  have block : lexer.outerKeys = [] := by rw [← before]; rfl
  have ready : lexer.dropStaleKeys? = some lexer := by rw [← before]; rfl
  have level : lexer.closeBlocks lexer.cursor.column = lexer := by
    rw [← before]
    cases opened <;> rfl
  rw [run?_step fuel (by rwa [skipToToken_of_atToken (isNext ▸ at')]) level isNext,
    token?_of_isPlain plain isNext marker block, read, Option.bind_some]

theorem run?_atColon (short : k.length ≤ 1024) (rest : List Char) (index line : Nat)
    (opened : Bool) (tokens : List Token) (fuel : Nat) :
    run? (fuel + 1) (atColon (':' :: ' ' :: rest) index line k.length opened tokens k) =
      run? fuel (atValue (' ' :: rest) (index + k.length + 1) line (k.length + 1)
        (tokens ++ ((if opened then [] else [.blockMapping]) ++
          [.key, .scalar k true, .value]))) := by
  have value : (atColon (':' :: ' ' :: rest) index line k.length opened tokens k).value? =
      some (atValue (' ' :: rest) (index + k.length + 1) line (k.length + 1)
        (tokens ++ ((if opened then [] else [.blockMapping]) ++
          [.key, .scalar k true, .value]))) := by
    cases opened <;>
      simp [value?, atColon, atValue, openBlock, inFlow, insertIdx_append, punctuate, push, moveTo,
        Cursor.skip]
  generalize before : atColon (':' :: ' ' :: rest) index line k.length opened tokens k = lexer
    at value ⊢
  have isNext : lexer.cursor.rest = ':' :: ' ' :: rest := by rw [← before]; rfl
  have ready : lexer.dropStaleKeys? = some lexer := by
    have fresh : ¬ 1024 < k.length := Nat.not_lt.2 short
    rw [← before]
    simp [dropStaleKeys?, dropStale?, isStale, atColon, fresh]
  have level : lexer.closeBlocks lexer.cursor.column = lexer := by
    rw [← before]
    cases opened <;> simp [atColon, closeBlocks, inFlow, closeBlocks.go]
  have still : AtToken lexer.cursor.rest := by
    rw [isNext]
    rintro c ⟨⟩
    decide
  rw [run?_step fuel (by rwa [skipToToken_of_atToken still]) level isNext, token?_colon isNext,
    value, Option.bind_some]

theorem plain?_atValue (plain : IsPlain s) (at' : AtToken rest) (index line column : Nat)
    (tokens : List Token) :
    (atValue (s ++ '\n' :: rest) index line (column + 1) tokens).plain? =
      some (atLine rest (index + s.length + 1) (line + 1) true (tokens ++ [.scalar s true])) := by
  have remembered : (atValue (s ++ '\n' :: rest) index line (column + 1) tokens).rememberKey? =
      some (atValue (s ++ '\n' :: rest) index line (column + 1) tokens) := rfl
  have start := plain.isDocumentMarker (by decide : '\n' ≠ '-' ∧ '\n' ≠ '.') rest index line
    (column + 1)
  have enough : s.length ≤ (s ++ '\n' :: rest).length + 1 :=
    Nat.le_succ_of_le (List.prefix_append s _).length_le
  have read := Cursor.plain?_value plain.isWords at'.solid start
    (Nat.succ_le_succ (Nat.zero_le (column + 1))) Nat.one_pos enough
  rw [plain?, remembered]
  change Option.bind (Cursor.plain? false 1 ((s ++ '\n' :: rest).length + 1) [] {}
    ⟨s ++ '\n' :: rest, index, line, column + 1⟩) _ = _
  rw [read]
  simp [atValue, atLine, allowKey, push, moveTo]

theorem run?_atValue (plain : IsPlain s) (at' : AtToken rest) (index line column : Nat)
    (tokens : List Token) (fuel : Nat) :
    run? (fuel + 1) (atValue (' ' :: (s ++ '\n' :: rest)) index line column tokens) =
      run? fuel (atLine rest (index + 1 + s.length + 1) (line + 1) true
        (tokens ++ [.scalar s true])) := by
  have atScalar := plain.atToken ('\n' :: rest)
  have start := plain.isDocumentMarker (by decide : '\n' ≠ '-' ∧ '\n' ≠ '.') rest (index + 1) line
    (column + 1)
  have read := plain?_atValue plain at' (index + 1) line column tokens
  obtain ⟨c, s', rfl⟩ := List.exists_cons_of_ne_nil plain.nonempty
  have ready : (skipToToken ((atValue (' ' :: (c :: s' ++ '\n' :: rest)) index line column
      tokens).cursor.rest.length + 1) (atValue (' ' :: (c :: s' ++ '\n' :: rest)) index line column
        tokens)).dropStaleKeys? =
          some (atValue (c :: s' ++ '\n' :: rest) (index + 1) line (column + 1) tokens) := by
    rw [skipToToken_space atScalar rfl]
    rfl
  generalize behind : atValue (c :: s' ++ '\n' :: rest) (index + 1) line (column + 1) tokens = lexer
    at read ready
  have isNext : lexer.cursor.rest = c :: (s' ++ '\n' :: rest) := by rw [← behind]; rfl
  have marker : lexer.cursor.isDocumentMarker = false := by rw [← behind]; exact start
  have block : lexer.outerKeys = [] := by rw [← behind]; rfl
  have level : lexer.closeBlocks lexer.cursor.column = lexer := by
    rw [← behind]
    have right : ¬ ((column + 1 : Nat) : Int) < 0 := by omega
    simp only [atValue, closeBlocks, inFlow, closeBlocks.go, List.isEmpty_nil, Bool.not_true,
      Bool.false_eq_true, if_false, right]
  rw [run?_step fuel ready level isNext, token?_of_isPlain plain isNext marker block, read,
    Option.bind_some]

end Line

end Lexer

end Yaml

end UiMarkdown
