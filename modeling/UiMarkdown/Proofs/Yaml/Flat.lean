import UiMarkdown.Proofs.Yaml.PlainLine
import UiMarkdown.Proofs.Yaml.Value

/-!
# Flat mappings

A mapping whose keys and values are plain scalars is written with a member on
each line, and what is read from these lines is the mapping.
-/

namespace UiMarkdown

namespace Yaml

/-- A key and a scalar that are written plain on a line, and the value of the scalar. -/
structure Pair where
  key : List Char
  text : List Char
  value : Json
  styled : Style.ofText key = .plain
  short : isShortKey key = true
  plain : IsPlain text
  means : Scalar.plain? text = some value
  written : writeValue 0 true value = ' ' :: text

theorem Scalar.plain?_of_style {s : List Char} (style : Style.ofText s = .plain) :
    Scalar.plain? s = some (.str (String.ofList s)) := by
  have plain := isPlain_of_style style
  simp only [Style.isPlain, Bool.and_eq_true, Style.readsAsText] at plain
  have reads := plain.1.1.1.1.1.2
  split at reads
  · rename_i t read
    have made := made_of_plain? (P := (· = s)) rfl read
    have same : t.toList = s := made.2 _ (by simp [Mask.textsOf])
    rw [read, ← same, String.ofList_toList]
  · cases reads

theorem length_of_isShortKey {key : List Char} (short : isShortKey key = true) :
    key.length ≤ 128 := by
  rw [isShortKey, Bool.and_eq_true, decide_eq_true_eq] at short
  refine Nat.le_trans ?_ short.2
  clear short
  induction key with
  | nil => exact Nat.le_refl 0
  | cons c key ih =>
      have one := Char.utf8Size_pos c
      rw [List.length_cons, Text.byteLength, List.foldr_cons, ← Text.byteLength]
      omega

theorem isAllowed_of_isPrintable {c : Char} (printable : Style.isPrintable c = true) :
    isAllowed c = true := by
  simp only [Style.isPrintable, Bool.or_eq_true, Bool.and_eq_true, beq_iff_eq,
    decide_eq_true_eq] at printable
  simp only [isAllowed, Bool.or_eq_true, Bool.and_eq_true, beq_iff_eq, decide_eq_true_eq]
  omega

namespace Pair

def line (pair : Pair) : List Char :=
  pair.key ++ ':' :: ' ' :: (pair.text ++ ['\n'])

def tokens (pair : Pair) : List Token :=
  [.key, .scalar pair.key true, .value, .scalar pair.text true]

def events (pair : Pair) : List Event :=
  [.scalar {} pair.key true, .scalar {} pair.text true]

def member (pair : Pair) : String × Json :=
  (String.ofList pair.key, pair.value)

/-- A null, a truth value and a text that is written plain stand on a line behind a short key. -/
theorem exists_of_scalar {key : String} {value : Json}
    (styled : Style.ofText key.toList = .plain) (short : isShortKey key.toList = true)
    (scalar : value = .null ∨ (∃ b, value = .bool b) ∨
      ∃ s : String, value = .str s ∧ Style.ofText s.toList = .plain) :
    ∃ pair : Pair, pair.member = (key, value) := by
  have same : String.ofList key.toList = key := String.ofList_toList
  rcases scalar with rfl | ⟨b, rfl⟩ | ⟨s, rfl, style⟩
  · exact ⟨⟨key.toList, "null".toList, .null, styled, short, by decide, rfl, rfl⟩,
      by rw [member, same]⟩
  · cases b with
    | false =>
        exact ⟨⟨key.toList, "false".toList, .bool false, styled, short, by decide, rfl, rfl⟩,
          by rw [member, same]⟩
    | true =>
        exact ⟨⟨key.toList, "true".toList, .bool true, styled, short, by decide, rfl, rfl⟩,
          by rw [member, same]⟩
  · have means := Scalar.plain?_of_style style
    have written : writeValue 0 true (.str s) = ' ' :: writeText 2 s.toList := rfl
    rw [String.ofList_toList] at means
    rw [writeText, style] at written
    exact ⟨⟨key.toList, s.toList, .str s, styled, short, .of_style style, means, written⟩,
      by rw [member, same]⟩

/-! ## Tokens -/

theorem plainKey (pair : Pair) : IsPlain pair.key :=
  .of_style pair.styled

theorem atToken_lines (pairs : List Pair) : AtToken (pairs.flatMap line) := by
  cases pairs with
  | nil => rintro c ⟨⟩
  | cons pair pairs =>
      rw [List.flatMap_cons, line, List.append_assoc]
      exact pair.plainKey.atToken _

theorem run?_line (pair : Pair) {rest : List Char} (at' : AtToken rest) (index line : Nat)
    (opened : Bool) (tokens : List Token) (fuel : Nat) :
    Lexer.run? (fuel + 3) (.atLine (pair.line ++ rest) index line opened tokens) =
      Lexer.run? fuel (.atLine rest (index + pair.line.length) (line + 1) true
        (tokens ++ ((if opened then [] else [.blockMapping]) ++ pair.tokens))) := by
  have whole : pair.line ++ rest = pair.key ++ ':' :: ' ' :: (pair.text ++ '\n' :: rest) := by
    simp [Pair.line]
  have count : index + pair.key.length + 1 + 1 + pair.text.length + 1 =
      index + pair.line.length := by
    simp [Pair.line]
    omega
  rw [whole, Lexer.run?_atLine pair.plainKey,
    Lexer.run?_atColon (Nat.le_trans (length_of_isShortKey pair.short) (by decide)),
    Lexer.run?_atValue pair.plain at', count]
  simp [Pair.tokens]

theorem run?_lines (pairs : List Pair) (index line : Nat) (tokens : List Token) (fuel : Nat) :
    Lexer.run? (3 * pairs.length + (fuel + 1))
        (.atLine (pairs.flatMap Pair.line) index line true tokens) =
      some (tokens ++ pairs.flatMap Pair.tokens ++ [.blockEnd, .streamEnd]) := by
  induction pairs generalizing index line tokens with
  | nil =>
      have still (fuel : Nat) : Lexer.skipToToken (fuel + 1) (.atLine [] index line true tokens) =
          .atLine [] index line true tokens :=
        Lexer.skipToToken_of_atToken (by rintro c ⟨⟩) fuel
      rw [List.length_nil, Nat.mul_zero, Nat.zero_add, List.flatMap_nil, Lexer.run?, still]
      simp [Lexer.atLine, Lexer.dropStaleKeys?, Lexer.dropStale?, Lexer.closeBlocks, Lexer.inFlow,
        Lexer.closeBlocks.go, Lexer.push, Lexer.forgetKey?]
  | cons pair pairs ih =>
      have fuels : 3 * (pair :: pairs).length + (fuel + 1) =
          3 * pairs.length + (fuel + 1) + 3 := by
        rw [List.length_cons]
        omega
      rw [fuels, List.flatMap_cons, pair.run?_line (atToken_lines pairs), ih]
      simp

theorem length_le (pairs : List Pair) :
    3 * pairs.length ≤ (pairs.flatMap line).length := by
  induction pairs with
  | nil => exact Nat.zero_le _
  | cons pair pairs ih =>
      rw [List.flatMap_cons, List.length_append, List.length_cons]
      simp only [line, List.length_append, List.length_cons]
      omega

/-- The lines of a mapping have what its keys and scalars have, and no break but their ends. -/
theorem of_mem_lines {pairs : List Pair} {c : Char} (mem : c ∈ pairs.flatMap line) :
    Style.isPrintable c = true ∧ (isBreak c = false ∨ c = '\n') := by
  obtain ⟨pair, -, mem⟩ := List.mem_flatMap.1 mem
  have plain {s : List Char} (plain : IsPlain s) (mem : c ∈ s) :
      Style.isPrintable c = true ∧ (isBreak c = false ∨ c = '\n') :=
    ⟨plain.isPrintable_of_mem mem, .inl (plain.isBreak_of_mem mem)⟩
  simp only [line, List.mem_append, List.mem_cons, List.not_mem_nil, or_false] at mem
  rcases mem with mem | rfl | rfl | mem | rfl
  · exact plain pair.plainKey mem
  · exact ⟨by decide, by decide⟩
  · exact ⟨by decide, by decide⟩
  · exact plain pair.plain mem
  · exact ⟨by decide, by decide⟩

theorem all_isAllowed (pairs : List Pair) : (pairs.flatMap line).all isAllowed = true :=
  List.all_eq_true.2 fun _ mem => isAllowed_of_isPrintable (of_mem_lines mem).1

/-- The tokens of the lines of a mapping. -/
theorem token_ofText? {pairs : List Pair} (nonempty : pairs ≠ []) :
    Token.ofText? (pairs.flatMap line) =
      some (.blockMapping :: pairs.flatMap tokens ++ [.blockEnd, .streamEnd]) := by
  obtain ⟨pair, pairs, rfl⟩ := List.exists_cons_of_ne_nil nonempty
  obtain ⟨fuel, fuels⟩ : ∃ fuel, ((pair :: pairs).flatMap line).length + 1 =
      3 * pairs.length + (fuel + 1) + 3 := by
    have long := length_le (pair :: pairs)
    rw [List.length_cons] at long
    exact ⟨((pair :: pairs).flatMap line).length - 3 * pairs.length - 3, by omega⟩
  have start : ({ cursor := { rest := (pair :: pairs).flatMap line } } : Lexer) =
      Lexer.atLine (pair.line ++ pairs.flatMap line) 0 0 false [] := rfl
  rw [Token.ofText?, if_pos (all_isAllowed _), fuels, start,
    pair.run?_line (atToken_lines pairs), run?_lines]
  simp

end Pair

/-! ## Events -/

namespace Event

theorem blockPairs?_pair (handles : Handles) (pair : Pair) (more : List Token) (fuel : Nat) :
    blockPairs? handles (fuel + 4) (pair.tokens ++ more) =
      (blockPairs? handles (fuel + 3) more).map fun read => (pair.events ++ read.1, read.2) :=
  rfl

theorem blockPairs?_pairs (handles : Handles) (pairs : List Pair) (rest : List Token)
    (fuel : Nat) :
    blockPairs? handles (pairs.length + fuel + 3)
        (pairs.flatMap Pair.tokens ++ .blockEnd :: rest) =
      some (pairs.flatMap Pair.events ++ [.mappingEnd], rest) := by
  induction pairs with
  | nil =>
      rw [List.length_nil, Nat.zero_add]
      rfl
  | cons pair pairs ih =>
      have fuels : (pair :: pairs).length + fuel + 3 = pairs.length + fuel + 4 := by
        rw [List.length_cons]
        omega
      rw [fuels, List.flatMap_cons, List.flatMap_cons, List.append_assoc, blockPairs?_pair, ih,
        List.append_assoc]
      rfl

theorem ofTokens?_pairs (pairs : List Pair) :
    ofTokens? (.blockMapping :: pairs.flatMap Pair.tokens ++ [.blockEnd, .streamEnd]) =
      some (.mapping {} :: pairs.flatMap Pair.events ++ [.mappingEnd]) := by
  have size : (pairs.flatMap Pair.tokens).length = 4 * pairs.length := by
    simp [Pair.tokens, Nat.mul_comm]
  have node (fuel : Nat) (more : List Token) :
      node? standardHandles (fuel + 1) true false (.blockMapping :: more) =
        (blockPairs? standardHandles fuel more).map fun read => (.mapping {} :: read.1, read.2) :=
    rfl
  generalize isMore : pairs.flatMap Pair.tokens ++ [.blockEnd, .streamEnd] = more
  have long : more.length = 4 * pairs.length + 2 := by
    rw [← isMore, List.length_append, size]
    rfl
  obtain ⟨fuel, fuels⟩ : ∃ fuel, 3 * (Token.blockMapping :: more).length + 3 =
      pairs.length + fuel + 3 + 1 :=
    ⟨3 * more.length + 2 - pairs.length, by rw [List.length_cons]; omega⟩
  have read : node? standardHandles (3 * (Token.blockMapping :: more).length + 3) true false
      (.blockMapping :: more) =
        some (.mapping {} :: pairs.flatMap Pair.events ++ [.mappingEnd], [.streamEnd]) := by
    rw [fuels, node, ← isMore, blockPairs?_pairs]
    rfl
  have directives : readDirectives? false [] (.blockMapping :: more) =
      some ([], .blockMapping :: more) := rfl
  have first : (next (.blockMapping :: more) == .streamEnd) = false := rfl
  rw [List.cons_append, isMore, ofTokens?, directives]
  dsimp only
  rw [bne_self_eq_false, if_neg Bool.false_ne_true, first, if_neg Bool.false_ne_true, read]
  rfl

end Event

/-! ## Values -/

theorem Anchors.collect?_pairs (pairs : List Pair) (position : Nat) :
    collect? position {} (pairs.flatMap Pair.events ++ [.mappingEnd]) = some {} := by
  induction pairs generalizing position with
  | nil => rfl
  | cons pair pairs ih => exact ih (position + 2)

namespace Graph

theorem events_getElem? (graph : Graph) {before after : List Event} {event : Event}
    (events : graph.events.toList = before ++ event :: after) :
    graph.events[before.length]? = some event := by
  rw [← Array.getElem?_toList, events]
  simp

theorem members?_pairs (graph : Graph) (pairs : List Pair) {before : List Event}
    (events : graph.events.toList = before ++ pairs.flatMap Pair.events ++ [.mappingEnd])
    (depth jumps fuel : Nat) :
    graph.members? (pairs.length + (fuel + 1)) depth jumps before.length =
      some (pairs.map Pair.member, jumps, before.length + 2 * pairs.length + 1) := by
  induction pairs generalizing before with
  | nil =>
      have ends : graph.events[before.length]? = some .mappingEnd :=
        graph.events_getElem? (by simpa using events)
      rw [List.length_nil, Nat.zero_add, members?, ends]
      rfl
  | cons pair pairs ih =>
      have split : graph.events.toList = (before ++ pair.events) ++
          pairs.flatMap Pair.events ++ [.mappingEnd] := by
        simpa using events
      have key : graph.events[before.length]? = some (.scalar {} pair.key true) :=
        graph.events_getElem? (by simpa [Pair.events] using events)
      have second : graph.events.toList = (before ++ [.scalar {} pair.key true]) ++
          .scalar {} pair.text true :: (pairs.flatMap Pair.events ++ [.mappingEnd]) := by
        simpa [Pair.events] using events
      have value := graph.events_getElem? second
      rw [List.length_append, List.length_singleton] at value
      have keyText : graph.key? jumps before.length = some (String.ofList pair.key, jumps) := by
        rw [key?, key]
      have node : graph.node? (pairs.length + (fuel + 1)) depth jumps (before.length + 1) =
          some (pair.value, jumps, before.length + 2) := by
        rw [← Nat.add_assoc, node?, value]
        dsimp only [scalar?]
        rw [if_pos rfl, pair.means]
        rfl
      have rest := ih split
      have length : (before ++ pair.events).length = before.length + 2 := by
        simp [Pair.events]
      rw [length] at rest
      rw [List.length_cons, Nat.succ_add, members?, key]
      dsimp only
      rw [keyText]
      dsimp only
      rw [node]
      dsimp only
      rw [rest]
      simp [Pair.member]
      omega

end Graph

namespace Pair

theorem length_events (pairs : List Pair) :
    (pairs.flatMap events).length = 2 * pairs.length := by
  simp [events, Nat.mul_comm]

/-- The lines of a mapping are read as the mapping. -/
theorem ofText?_lines {pairs : List Pair} (nonempty : pairs ≠ []) :
    ofText? (pairs.flatMap line) = some (.obj (Object.ofList (pairs.map member))) := by
  have tokens := token_ofText? nonempty
  have read := Event.ofTokens?_pairs pairs
  generalize isEvents : Event.mapping {} :: pairs.flatMap events ++ [.mappingEnd] = events
    at read
  have anchors : Anchors.collect? 0 {} events = some {} := by
    rw [← isEvents]
    exact Anchors.collect?_pairs pairs 1
  have filled : events.isEmpty = false := by
    rw [← isEvents]
    rfl
  have enough : pairs.length + 2 ≤ (events.length + 3) * (2 * nestingLimit + 4) := by
    have long : pairs.length + 2 ≤ events.length + 3 := by
      rw [← isEvents, List.length_append, List.length_cons, length_events]
      omega
    exact Nat.le_trans long (Nat.le_mul_of_pos_right _ (Nat.succ_pos _))
  obtain ⟨fuel, fuels⟩ : ∃ fuel, (events.length + 3) * (2 * nestingLimit + 4) =
      pairs.length + (fuel + 1) + 1 :=
    ⟨(events.length + 3) * (2 * nestingLimit + 4) - (pairs.length + 2), by omega⟩
  generalize isGraph : Graph.mk events.toArray {} = graph
  have isList : graph.events.toList =
      [.mapping {}] ++ pairs.flatMap Pair.events ++ [.mappingEnd] := by
    rw [← isGraph, ← isEvents]
    rfl
  have isFirst : graph.events.toList =
      [] ++ .mapping {} :: (pairs.flatMap Pair.events ++ [.mappingEnd]) := isList
  have first : graph.events[0]? = some (.mapping {}) := graph.events_getElem? isFirst
  have members := graph.members?_pairs pairs isList (nestingLimit - 1) 0 fuel
  have node : graph.node? ((events.length + 3) * (2 * nestingLimit + 4)) nestingLimit 0 0 =
      some (.obj (Object.ofList (pairs.map member)), 0, 1 + 2 * pairs.length + 1) := by
    rw [fuels, Graph.node?, first]
    dsimp only
    rw [if_pos (by decide)]
    rw [List.length_singleton] at members
    rw [members]
    rfl
  rw [ofText?, tokens, Option.bind_eq_bind, Option.bind_some, read, Option.bind_eq_bind,
    Option.bind_some, filled, if_neg Bool.false_ne_true, anchors, Option.bind_eq_bind,
    Option.bind_some]
  dsimp only
  rw [isGraph, node]
  rfl

end Pair

/-! ## Writing -/

theorem endLine_append {s : List Char} (nonempty : s ≠ []) (before : List Char) :
    endLine (before ++ s) = before ++ endLine s := by
  obtain ⟨last, isLast⟩ : ∃ c, s.getLast? = some c := ⟨_, List.getLast?_eq_some_getLast nonempty⟩
  rw [endLine, endLine, List.getLast?_append, isLast, Option.some_or]
  split <;> simp

namespace Pair

theorem endLine_member (pair : Pair) :
    endLine (writeKey 0 pair.key ++ writeValue 0 (isShortKey pair.key) pair.value) =
      pair.line := by
  have written : writeKey 0 pair.key ++ writeValue 0 (isShortKey pair.key) pair.value =
      pair.key ++ ':' :: ' ' :: pair.text := by
    rw [writeKey, pair.short, if_pos rfl, pair.written, writeText, pair.styled]
    simp
  have unbroken : ((pair.key ++ ':' :: ' ' :: pair.text).getLast?).any isBreak = false := by
    rw [Bool.eq_false_iff, ne_eq, Option.any_eq_true]
    rintro ⟨c, isLast, breaks⟩
    rw [List.append_cons, List.append_cons, List.getLast?_append_of_ne_nil _ pair.plain.nonempty]
      at isLast
    rw [pair.plain.isBreak_of_mem (List.mem_of_getLast? isLast)] at breaks
    cases breaks
  rw [written, endLine, unbroken, if_neg Bool.false_ne_true, line]
  simp

/-- A mapping of plain scalars is written line by line. -/
theorem writeMapping_pairs {pairs : List Pair} (nonempty : pairs ≠ []) :
    writeMapping (pairs.map member) = pairs.flatMap line := by
  have some : (pairs.map member).isEmpty = false := by
    rw [Bool.eq_false_iff, ne_eq, List.isEmpty_iff, List.map_eq_nil_iff]
    exact nonempty
  rw [writeMapping, some, if_neg Bool.false_ne_true]
  clear some
  induction pairs with
  | nil => exact absurd rfl nonempty
  | cons pair pairs ih =>
      have line := pair.endLine_member
      cases pairs with
      | nil =>
          have single : writeMembers 0 [pair.member] =
              writeKey 0 (String.ofList pair.key).toList ++
                writeValue 0 (isShortKey (String.ofList pair.key).toList) pair.value := rfl
          rw [List.map_singleton, List.flatMap_singleton, single, String.toList_ofList, line]
      | cons next pairs =>
          have rest := ih (List.cons_ne_nil next pairs)
          rw [List.map_cons] at rest
          rw [List.map_cons, List.map_cons, writeMembers_cons_cons,
            endLine_append (writeMembers_ne_nil 0 _ _), rest, member, String.toList_ofList,
            line, spaces, List.replicate_zero, List.append_nil, ← List.flatMap_cons]

end Pair

end Yaml

end UiMarkdown
