import UiMarkdown.Proofs.Yaml.Lexer
import UiMarkdown.Proofs.Yaml.Value

/-!
# Words of the scalars among events

The text of a scalar among the events is that of a token, or empty where
nothing is written.
-/

namespace UiMarkdown

namespace Yaml

def Token.AllWordsIn (s : List Char) (tokens : List Token) : Prop :=
  ∀ token ∈ tokens, token.WordsIn s

theorem Token.AllWordsIn.of_cons {s : List Char} {token : Token} {tokens : List Token}
    (words : AllWordsIn s (token :: tokens)) : token.WordsIn s ∧ AllWordsIn s tokens :=
  List.forall_mem_cons.1 words

namespace Event

variable {s : List Char} {handles : Handles} {tokens : List Token} {fuel : Nat}

abbrev AllWordsIn (s : List Char) (events : List Event) : Prop :=
  ScalarsHave (Text.WordsIn s) events

theorem allWordsIn_nil : AllWordsIn s [] :=
  fun _ _ _ mem => absurd mem List.not_mem_nil

theorem AllWordsIn.append {first second : List Event} (before : AllWordsIn s first)
    (after : AllWordsIn s second) : AllWordsIn s (first ++ second) := by
  intro properties text plain mem
  rcases List.mem_append.1 mem with here | there
  · exact before _ _ _ here
  · exact after _ _ _ there

theorem allWordsIn_singleton {event : Event}
    (words : ∀ properties text plain, event = .scalar properties text plain →
      Text.WordsIn s text) : AllWordsIn s [event] := by
  intro properties text plain mem
  exact words _ _ _ (List.mem_singleton.1 mem).symm

theorem allWordsIn_scalar {properties : Properties} {text : List Char} {plain : Bool}
    (words : Text.WordsIn s text) : AllWordsIn s [.scalar properties text plain] := by
  apply allWordsIn_singleton
  rintro _ _ _ ⟨⟩
  exact words

/-- Where nothing is written there are no words. -/
theorem allWordsIn_absent (properties : Properties) :
    AllWordsIn s [.scalar properties [] true] :=
  allWordsIn_scalar (.of_isInfix List.nil_infix)

abbrev Read := Option (List Event × List Token)

/-- Events that are read, and the tokens left, have their words in a text. -/
def Yields (s : List Char) (read : Read) : Prop :=
  ∀ events rest, read = some (events, rest) → AllWordsIn s events ∧ Token.AllWordsIn s rest

theorem yields_none : Yields s none := by
  rintro _ _ ⟨⟩

theorem yields_some {events : List Event} (words : AllWordsIn s events)
    (left : Token.AllWordsIn s tokens) : Yields s (some (events, tokens)) := by
  rintro _ _ ⟨⟩
  exact ⟨words, left⟩

theorem Yields.map {read : Read} {f : List Event → List Event} (yields : Yields s read)
    (words : ∀ events, AllWordsIn s events → AllWordsIn s (f events)) :
    Yields s (read.map fun (events, rest) => (f events, rest)) := by
  intro events rest found
  obtain ⟨⟨events', rest'⟩, inner, same⟩ := Option.map_eq_some_iff.1 found
  cases same
  exact ⟨words _ (yields _ _ inner).1, (yields _ _ inner).2⟩

/-- More is read from the tokens that are left. -/
theorem Yields.andThen {read : Read} {more : List Event → List Token → Read}
    (yields : Yields s read)
    (yieldsMore : ∀ events rest, AllWordsIn s events → Token.AllWordsIn s rest →
      Yields s (more events rest)) :
    Yields s (match (motive := Read → Read) read with
      | none => none
      | some (events, rest) => more events rest) := by
  split
  · exact yields_none
  · exact yieldsMore _ _ (yields _ _ rfl).1 (yields _ _ rfl).2

/-- An event without text before others. -/
theorem Yields.after {read : Read} {event : Event} (yields : Yields s read)
    (bare : AllWordsIn s [event]) :
    Yields s (read.map fun (events, rest) => (event :: events, rest)) :=
  yields.map fun _ words => bare.append words

theorem Yields.orEmpty {read : Read} {p : Bool} (left : Token.AllWordsIn s tokens)
    (yields : Yields s read) : Yields s (if p then some ([empty], tokens) else read) := by
  split
  · exact yields_some (allWordsIn_absent {}) left
  · exact yields

theorem yields_absent? {properties : Properties} (left : Token.AllWordsIn s tokens) :
    Yields s (absent? properties tokens) := by
  rw [absent?]
  split
  · exact yields_none
  · exact yields_some (allWordsIn_absent properties) left

theorem words_of_readProperties? {properties : Properties} {rest : List Token}
    (words : Token.AllWordsIn s tokens)
    (found : readProperties? handles tokens = some (properties, rest)) :
    Token.AllWordsIn s rest := by
  unfold readProperties? at found
  split at found
  · obtain ⟨tag, -, same⟩ := Option.map_eq_some_iff.1 found
    cases same
    exact words.of_cons.2.of_cons.2
  · obtain ⟨tag, -, same⟩ := Option.map_eq_some_iff.1 found
    cases same
    exact words.of_cons.2.of_cons.2
  · cases found
    exact words.of_cons.2
  · obtain ⟨tag, -, same⟩ := Option.map_eq_some_iff.1 found
    cases same
    exact words.of_cons.2
  · cases found
    exact words

theorem words_of_afterComma? {first : Bool} {rest : List Token}
    (words : Token.AllWordsIn s tokens) (found : afterComma? first tokens = some rest) :
    Token.AllWordsIn s rest := by
  unfold afterComma? at found
  split at found
  · cases found
    exact words
  · split at found
    · cases found
      exact words.of_cons.2
    · cases found

theorem allWordsIn_alias (name : List Char) : AllWordsIn s [.alias name] :=
  allWordsIn_singleton fun _ _ _ same => by cases same

theorem allWordsIn_sequence (properties : Properties) : AllWordsIn s [.sequence properties] :=
  allWordsIn_singleton fun _ _ _ same => by cases same

theorem allWordsIn_mapping (properties : Properties) : AllWordsIn s [.mapping properties] :=
  allWordsIn_singleton fun _ _ _ same => by cases same

theorem allWordsIn_sequenceEnd : AllWordsIn s [.sequenceEnd] :=
  allWordsIn_singleton fun _ _ _ same => by cases same

theorem allWordsIn_mappingEnd : AllWordsIn s [.mappingEnd] :=
  allWordsIn_singleton fun _ _ _ same => by cases same

/-- What the readers of nodes, items and pairs yield with some fuel. -/
structure ReadersYield (s : List Char) (handles : Handles) (fuel : Nat) : Prop where
  node : ∀ block indentless tokens, Token.AllWordsIn s tokens →
    Yields s (node? handles fuel block indentless tokens)
  blockItems : ∀ tokens, Token.AllWordsIn s tokens → Yields s (blockItems? handles fuel tokens)
  indentlessItems : ∀ tokens, Token.AllWordsIn s tokens →
    Yields s (indentlessItems? handles fuel tokens)
  blockPairs : ∀ tokens, Token.AllWordsIn s tokens → Yields s (blockPairs? handles fuel tokens)
  blockValue : ∀ tokens, Token.AllWordsIn s tokens → Yields s (blockValue? handles fuel tokens)
  flowItems : ∀ first tokens, Token.AllWordsIn s tokens →
    Yields s (flowItems? handles fuel first tokens)
  flowPair : ∀ tokens, Token.AllWordsIn s tokens → Yields s (flowPair? handles fuel tokens)
  flowPairs : ∀ first tokens, Token.AllWordsIn s tokens →
    Yields s (flowPairs? handles fuel first tokens)

theorem readersYield_zero : ReadersYield s handles 0 where
  node _ _ _ _ := by rw [node?]; exact yields_none
  blockItems _ _ := by rw [blockItems?]; exact yields_none
  indentlessItems _ _ := by rw [indentlessItems?]; exact yields_none
  blockPairs _ _ := by rw [blockPairs?]; exact yields_none
  blockValue _ _ := by rw [blockValue?]; exact yields_none
  flowItems _ _ _ := by rw [flowItems?]; exact yields_none
  flowPair _ _ := by rw [flowPair?]; exact yields_none
  flowPairs _ _ _ := by rw [flowPairs?]; exact yields_none

namespace ReadersYield

variable (ih : ReadersYield s handles fuel) (words : Token.AllWordsIn s tokens)

include ih words

theorem step_node (block indentless : Bool) :
    Yields s (node? handles (fuel + 1) block indentless tokens) := by
  unfold node?
  split
  · exact yields_some (allWordsIn_alias _) words.of_cons.2
  · split
    · exact yields_none
    · rename_i properties left isProperties
      have words' := words_of_readProperties? words isProperties
      split
      · split
        · exact (ih.indentlessItems _ words').after (allWordsIn_sequence properties)
        · exact yields_absent? words'
      · exact yields_some (allWordsIn_scalar words'.of_cons.1) words'.of_cons.2
      · exact (ih.flowItems _ _ words'.of_cons.2).after (allWordsIn_sequence properties)
      · exact (ih.flowPairs _ _ words'.of_cons.2).after (allWordsIn_mapping properties)
      · split
        · exact (ih.blockItems _ words'.of_cons.2).after (allWordsIn_sequence properties)
        · exact yields_absent? words'
      · split
        · exact (ih.blockPairs _ words'.of_cons.2).after (allWordsIn_mapping properties)
        · exact yields_absent? words'
      · exact yields_absent? words'

theorem step_blockItems : Yields s (blockItems? handles (fuel + 1) tokens) := by
  unfold blockItems?
  split
  · refine Yields.andThen ?_ fun _ _ item left => ?_
    · exact .orEmpty words.of_cons.2 (ih.node _ _ _ words.of_cons.2)
    · exact (ih.blockItems _ left).map fun _ => item.append
  · exact yields_some allWordsIn_sequenceEnd words.of_cons.2
  · exact yields_none

theorem step_indentlessItems : Yields s (indentlessItems? handles (fuel + 1) tokens) := by
  unfold indentlessItems?
  split
  · refine Yields.andThen ?_ fun _ _ item left => ?_
    · exact .orEmpty words.of_cons.2 (ih.node _ _ _ words.of_cons.2)
    · exact (ih.indentlessItems _ left).map fun _ => item.append
  · exact yields_some allWordsIn_sequenceEnd words

theorem step_blockPairs : Yields s (blockPairs? handles (fuel + 1) tokens) := by
  unfold blockPairs?
  split
  · exact yields_some allWordsIn_mappingEnd words.of_cons.2
  · refine Yields.andThen ?_ fun _ _ key left => ?_
    · exact .orEmpty words.of_cons.2 (ih.node _ _ _ words.of_cons.2)
    · refine Yields.andThen (ih.blockValue _ left) fun _ _ value left' => ?_
      exact (ih.blockPairs _ left').map fun _ => (key.append value).append
  · exact yields_none

theorem step_blockValue : Yields s (blockValue? handles (fuel + 1) tokens) := by
  unfold blockValue?
  split
  · exact .orEmpty words.of_cons.2 (ih.node _ _ _ words.of_cons.2)
  · exact yields_some (allWordsIn_absent {}) words

/-- The value of a pair between brackets: a node after a colon, or nothing. -/
theorem flowValue (ends : Token → Bool) : Yields s
    (match (motive := List Token → Read) tokens with
      | .value :: rest =>
          if ends (next rest) then some ([empty], rest) else node? handles fuel false false rest
      | _ => some ([empty], tokens)) := by
  split
  · exact .orEmpty words.of_cons.2 (ih.node _ _ _ words.of_cons.2)
  · exact yields_some (allWordsIn_absent {}) words

theorem step_flowPair : Yields s (flowPair? handles (fuel + 1) tokens) := by
  unfold flowPair?
  refine Yields.andThen ?_ fun _ _ key left => ?_
  · exact .orEmpty (fun token mem => words token (List.mem_of_mem_drop mem)) (ih.node _ _ _ words)
  · exact Yields.map (f := fun value => .mapping {} :: _ ++ value ++ [.mappingEnd])
      (ih.flowValue left fun token => token == .flowEntry || token == .flowSequenceEnd)
      fun _ value => (((allWordsIn_mapping {}).append key).append value).append
        allWordsIn_mappingEnd

theorem step_flowItems (first : Bool) :
    Yields s (flowItems? handles (fuel + 1) first tokens) := by
  unfold flowItems?
  split
  · exact yields_some allWordsIn_sequenceEnd words.of_cons.2
  · split
    · exact yields_none
    · rename_i found
      exact yields_some allWordsIn_sequenceEnd (words_of_afterComma? words found).of_cons.2
    · rename_i found
      have words' := words_of_afterComma? words found
      refine Yields.andThen ?_ fun _ _ item left => ?_
      · split
        · exact ih.flowPair _ words'.of_cons.2
        · exact ih.node _ _ _ words'
      · exact (ih.flowItems _ _ left).map fun _ => item.append

theorem step_flowPairs (first : Bool) :
    Yields s (flowPairs? handles (fuel + 1) first tokens) := by
  unfold flowPairs?
  split
  · exact yields_some allWordsIn_mappingEnd words.of_cons.2
  · split
    · exact yields_none
    · rename_i found
      exact yields_some allWordsIn_mappingEnd (words_of_afterComma? words found).of_cons.2
    · rename_i found
      have words' := words_of_afterComma? words found
      refine Yields.andThen ?_ fun _ _ pair left => ?_
      · split
        · refine Yields.andThen ?_ fun _ _ key left => ?_
          · exact .orEmpty words'.of_cons.2 (ih.node _ _ _ words'.of_cons.2)
          · exact Yields.map (ih.flowValue left fun token =>
              token == .flowEntry || token == .flowMappingEnd) fun _ => key.append
        · exact (ih.node _ _ _ words').map fun _ key => key.append (allWordsIn_absent {})
      · exact (ih.flowPairs _ _ left).map fun _ => pair.append

end ReadersYield

theorem readersYield (fuel : Nat) : ReadersYield s handles fuel := by
  induction fuel with
  | zero => exact readersYield_zero
  | succ fuel ih =>
      exact {
        node := fun _ _ _ words => ih.step_node words _ _
        blockItems := fun _ words => ih.step_blockItems words
        indentlessItems := fun _ words => ih.step_indentlessItems words
        blockPairs := fun _ words => ih.step_blockPairs words
        blockValue := fun _ words => ih.step_blockValue words
        flowItems := fun _ _ words => ih.step_flowItems words _
        flowPair := fun _ words => ih.step_flowPair words
        flowPairs := fun _ _ words => ih.step_flowPairs words _ }

theorem words_of_readDirectives? {version : Bool} {handles' : Handles} {rest : List Token}
    (words : Token.AllWordsIn s tokens)
    (found : readDirectives? version handles tokens = some (handles', rest)) :
    Token.AllWordsIn s rest := by
  fun_induction readDirectives? version handles tokens with
  | case1 version handles major minor rest known ih => exact ih words.of_cons.2 found
  | case2 => cases found
  | case3 => cases found
  | case4 version handles handle expansion rest known ih => exact ih words.of_cons.2 found
  | case5 =>
      cases found
      exact words

theorem words_of_ofTokens? {events : List Event} (words : Token.AllWordsIn s tokens)
    (found : ofTokens? tokens = some events) : AllWordsIn s events := by
  unfold ofTokens? at found
  extract_lets fuel body at found
  have yields : Yields s body := by
    dsimp only [body]
    split
    · exact yields_none
    · rename_i read
      have left := (words_of_readDirectives? words read).of_cons.2
      exact .orEmpty left ((readersYield _).node _ _ _ left)
    · split
      · exact yields_none
      · split
        · exact yields_some allWordsIn_nil words
        · exact (readersYield _).node _ _ _ words
  clear_value body
  split at found
  · split at found
    · cases found
      exact (yields _ _ rfl).1
    · cases found
  · cases found

end Event

/-- Without a backslash, the words of what is read from a text stand in the text. -/
theorem words_of_ofText? {s : List Char} {value : Json} (plain : '\\' ∉ s)
    (read : ofText? s = some value) : Made (Text.WordsIn s) value := by
  refine made_of_ofText? (fun events found => ?_) read
  obtain ⟨tokens, scanned, parsed⟩ := Option.bind_eq_some_iff.1 (Option.mem_def.1 found)
  exact Event.words_of_ofTokens? (Token.words_of_ofText? plain scanned) parsed

end Yaml

end UiMarkdown
