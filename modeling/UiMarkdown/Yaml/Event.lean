import UiMarkdown.Yaml.Token.Lexer

/-!
# Yaml events

The structure of a Yaml text as a sequence of events: scalars, aliases, and
the starts and ends of sequences and mappings.  The events follow from the
tokens by a grammar with one token of look ahead.
-/

namespace UiMarkdown

namespace Yaml

structure Properties where
  anchor : Option (List Char) := none
  tag : Option (List Char) := none
  deriving DecidableEq, Repr

inductive Event where
  | alias (name : List Char)
  | scalar (properties : Properties) (text : List Char) (plain : Bool)
  | sequence (properties : Properties)
  | sequenceEnd
  | mapping (properties : Properties)
  | mappingEnd
  deriving DecidableEq, Repr

/-- The handles that a document declares, with what they stand for. -/
abbrev Handles := List (List Char × List Char)

def standardHandles : Handles :=
  [(['!'], ['!']), (['!', '!'], "tag:yaml.org,2002:".toList)]

namespace Event

/-- The scalar that stands where nothing is written. -/
def empty : Event := .scalar {} [] true

def tagOf? (handles : Handles) (handle suffix : List Char) : Option (List Char) :=
  if handle.isEmpty then some suffix
  else (handles.lookup handle).map (· ++ suffix)

def readProperties? (handles : Handles) (tokens : List Token) : Option (Properties × List Token) :=
  match tokens with
  | .anchor name :: .tag handle suffix :: rest =>
      (tagOf? handles handle suffix).map fun tag => (⟨some name, some tag⟩, rest)
  | .tag handle suffix :: .anchor name :: rest =>
      (tagOf? handles handle suffix).map fun tag => (⟨some name, some tag⟩, rest)
  | .anchor name :: rest => some (⟨some name, none⟩, rest)
  | .tag handle suffix :: rest =>
      (tagOf? handles handle suffix).map fun tag => (⟨none, some tag⟩, rest)
  | _ => some ({}, tokens)

/-- Whether a token ends an item of a block or starts the next part of a mapping. -/
def endsBlockItem (token : Token) : Bool :=
  token == .key || token == .value || token == .blockEnd

def next (tokens : List Token) : Token :=
  tokens.headD .streamEnd

/-- A node of which only the properties are written. -/
def absent? (properties : Properties) (tokens : List Token) : Option (List Event × List Token) :=
  if properties == {} then none else some ([.scalar properties [] true], tokens)

/-- The tokens after the comma that must stand before all items but the first. -/
def afterComma? (first : Bool) (tokens : List Token) : Option (List Token) :=
  if first then some tokens
  else
    match tokens with
    | .flowEntry :: rest => some rest
    | _ => none

mutual

def node? (handles : Handles) : (fuel : Nat) → (block indentless : Bool) → List Token →
    Option (List Event × List Token)
  | 0, _, _, _ => none
  | fuel + 1, block, indentless, tokens =>
      match tokens with
      | .alias name :: rest => some ([.alias name], rest)
      | _ =>
          match readProperties? handles tokens with
          | none => none
          | some (properties, tokens) =>
              match tokens with
              | .blockEntry :: _ =>
                  if indentless then
                    (indentlessItems? handles fuel tokens).map fun (events, rest) =>
                      (.sequence properties :: events, rest)
                  else absent? properties tokens
              | .scalar text plain :: rest => some ([.scalar properties text plain], rest)
              | .flowSequence :: rest =>
                  (flowItems? handles fuel true rest).map fun (events, rest) =>
                    (.sequence properties :: events, rest)
              | .flowMapping :: rest =>
                  (flowPairs? handles fuel true rest).map fun (events, rest) =>
                    (.mapping properties :: events, rest)
              | .blockSequence :: rest =>
                  if block then
                    (blockItems? handles fuel rest).map fun (events, rest) =>
                      (.sequence properties :: events, rest)
                  else absent? properties tokens
              | .blockMapping :: rest =>
                  if block then
                    (blockPairs? handles fuel rest).map fun (events, rest) =>
                      (.mapping properties :: events, rest)
                  else absent? properties tokens
              | _ => absent? properties tokens
def blockItems? (handles : Handles) : (fuel : Nat) → List Token →
    Option (List Event × List Token)
  | 0, _ => none
  | fuel + 1, tokens =>
      match tokens with
      | .blockEntry :: rest =>
          let item :=
            if next rest == .blockEntry || next rest == .blockEnd then some ([empty], rest)
            else node? handles fuel true false rest
          match item with
          | none => none
          | some (item, rest) =>
              (blockItems? handles fuel rest).map fun (events, rest) => (item ++ events, rest)
      | .blockEnd :: rest => some ([.sequenceEnd], rest)
      | _ => none

/-- The items of a sequence that stands no further right than its key, and its end. -/
def indentlessItems? (handles : Handles) : (fuel : Nat) → List Token →
    Option (List Event × List Token)
  | 0, _ => none
  | fuel + 1, tokens =>
      match tokens with
      | .blockEntry :: rest =>
          let item :=
            if next rest == .blockEntry || endsBlockItem (next rest) then some ([empty], rest)
            else node? handles fuel true false rest
          match item with
          | none => none
          | some (item, rest) =>
              (indentlessItems? handles fuel rest).map fun (events, rest) => (item ++ events, rest)
      | _ => some ([.sequenceEnd], tokens)

def blockPairs? (handles : Handles) : (fuel : Nat) → List Token →
    Option (List Event × List Token)
  | 0, _ => none
  | fuel + 1, tokens =>
      match tokens with
      | .blockEnd :: rest => some ([.mappingEnd], rest)
      | .key :: rest =>
          let key :=
            if endsBlockItem (next rest) then some ([empty], rest)
            else node? handles fuel true true rest
          match key with
          | none => none
          | some (key, rest) =>
              match blockValue? handles fuel rest with
              | none => none
              | some (value, rest) =>
                  (blockPairs? handles fuel rest).map fun (events, rest) =>
                    (key ++ value ++ events, rest)
      | _ => none

def blockValue? (handles : Handles) : (fuel : Nat) → List Token →
    Option (List Event × List Token)
  | 0, _ => none
  | fuel + 1, tokens =>
      match tokens with
      | .value :: rest =>
          if endsBlockItem (next rest) then some ([empty], rest)
          else node? handles fuel true true rest
      | _ => some ([empty], tokens)

def flowItems? (handles : Handles) : (fuel : Nat) → (first : Bool) → List Token →
    Option (List Event × List Token)
  | 0, _, _ => none
  | fuel + 1, first, tokens =>
      match tokens with
      | .flowSequenceEnd :: rest => some ([.sequenceEnd], rest)
      | _ =>
          match afterComma? first tokens with
          | none => none
          | some (.flowSequenceEnd :: rest) => some ([.sequenceEnd], rest)
          | some tokens =>
              let item :=
                match tokens with
                | .key :: rest => flowPair? handles fuel rest
                | _ => node? handles fuel false false tokens
              match item with
              | none => none
              | some (item, rest) =>
                  (flowItems? handles fuel false rest).map fun (events, rest) =>
                    (item ++ events, rest)
def flowPair? (handles : Handles) : (fuel : Nat) → List Token →
    Option (List Event × List Token)
  | 0, _ => none
  | fuel + 1, tokens =>
      let ends (token : Token) : Bool := token == .flowEntry || token == .flowSequenceEnd
      let key : Option (List Event × List Token) :=
        if next tokens == .value || ends (next tokens) then some ([empty], tokens.drop 1)
        else node? handles fuel false false tokens
      match key with
      | none => none
      | some (key, rest) =>
          let value : Option (List Event × List Token) :=
            match rest with
            | .value :: rest =>
                if ends (next rest) then some ([empty], rest)
                else node? handles fuel false false rest
            | _ => some ([empty], rest)
          value.map fun (value, rest) =>
            (.mapping ({} : Properties) :: key ++ value ++ [.mappingEnd], rest)

def flowPairs? (handles : Handles) : (fuel : Nat) → (first : Bool) → List Token →
    Option (List Event × List Token)
  | 0, _, _ => none
  | fuel + 1, first, tokens =>
      match tokens with
      | .flowMappingEnd :: rest => some ([.mappingEnd], rest)
      | _ =>
          match afterComma? first tokens with
          | none => none
          | some (.flowMappingEnd :: rest) => some ([.mappingEnd], rest)
          | some tokens =>
              let ends (token : Token) : Bool := token == .flowEntry || token == .flowMappingEnd
              let pair :=
                match tokens with
                | .key :: rest =>
                    let key :=
                      if next rest == .value || ends (next rest) then some ([empty], rest)
                      else node? handles fuel false false rest
                    match key with
                    | none => none
                    | some (key, rest) =>
                        let value :=
                          match rest with
                          | .value :: rest =>
                              if ends (next rest) then some ([empty], rest)
                              else node? handles fuel false false rest
                          | _ => some ([empty], rest)
                        value.map fun (value, rest) => (key ++ value, rest)
                | _ =>
                    (node? handles fuel false false tokens).map fun (key, rest) =>
                      (key ++ [empty], rest)
              match pair with
              | none => none
              | some (pair, rest) =>
                  (flowPairs? handles fuel false rest).map fun (events, rest) =>
                    (pair ++ events, rest)

end

def isEdge : Token → Bool
  | .version _ _ | .tagHandle _ _ | .documentStart | .documentEnd | .streamEnd => true
  | _ => false

/-- The handles that directives declare, and the tokens after them. -/
def readDirectives? : (version : Bool) → Handles → List Token → Option (Handles × List Token)
  | version, handles, .version major minor :: rest =>
      if !version && major == 1 && (minor == 1 || minor == 2) then readDirectives? true handles rest
      else none
  | version, handles, .tagHandle handle expansion :: rest =>
      if (handles.lookup handle).isSome then none
      else readDirectives? version (handles ++ [(handle, expansion)]) rest
  | _, handles, tokens => some (handles, tokens)

/-- The events of the only document of a text; a text without one has none. -/
def ofTokens? (tokens : List Token) : Option (List Event) :=
  let fuel := 3 * tokens.length + 3
  let body : Option (List Event × List Token) :=
    match readDirectives? false [] tokens with
    | none => none
    | some (handles, .documentStart :: rest) =>
        if isEdge (next rest) then some ([empty], rest)
        else node? (handles ++ standardHandles) fuel true false rest
    | some (_, rest) =>
        if rest.length != tokens.length then none
        else if next tokens == .streamEnd then some ([], tokens)
        else node? standardHandles fuel true false tokens
  match body with
  | some (events, rest) =>
      if rest.dropWhile (· == .documentEnd) == [.streamEnd] then some events else none
  | none => none

end Event

end Yaml

end UiMarkdown
