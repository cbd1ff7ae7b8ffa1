import UiMarkdown.Yaml.Event
import UiMarkdown.Yaml.Scalar

/-!
# Yaml text as a Json value

An alias stands for the node with its anchor.  Keys are the texts of scalars,
and of equal keys the last one counts.  Nesting and the number of aliases
followed are limited, so that a small text has no huge value.
-/

namespace UiMarkdown

namespace Yaml

def nestingLimit : Nat := 128

/-- The number of aliases that may be followed for each event. -/
def aliasFactor : Nat := 100

def Event.anchor? : Event → Option (List Char)
  | .scalar properties _ _ | .sequence properties | .mapping properties => properties.anchor
  | _ => none

/--
Where the nodes of aliases are: the position of each alias with a number, and
for each number the position of the node.  Numbers count the distinct anchors
seen before.
-/
structure Anchors where
  numbers : List (List Char × Nat) := []
  aliases : List (Nat × Nat) := []
  nodes : List (Nat × Nat) := []

namespace Anchors

def assign {α : Type} [BEq α] (key : α) (value : Nat) (pairs : List (α × Nat)) :
    List (α × Nat) :=
  (key, value) :: pairs.filter fun (k, _) => !(k == key)

/-- The places of the nodes of all aliases; an alias without an anchor before it is an error. -/
def collect? : (position : Nat) → Anchors → List Event → Option Anchors
  | _, anchors, [] => some anchors
  | position, anchors, event :: rest =>
      match event with
      | .alias name =>
          match anchors.numbers.lookup name with
          | some number =>
              collect? (position + 1)
                { anchors with aliases := (position, number) :: anchors.aliases } rest
          | none => none
      | event =>
          match event.anchor? with
          | some name =>
              let number := anchors.numbers.length
              collect? (position + 1)
                { anchors with
                  numbers := assign name number anchors.numbers
                  nodes := assign number position anchors.nodes } rest
          | none => collect? (position + 1) anchors rest

def target? (anchors : Anchors) (position : Nat) : Option Nat :=
  (anchors.aliases.lookup position).bind fun number => anchors.nodes.lookup number

end Anchors

/-- The events of a document with the places of its aliases. -/
structure Graph where
  events : Array Event
  anchors : Anchors

namespace Graph

/-- Whether a node with these properties has a value. -/
def isKnown (properties : Properties) : Bool :=
  !(properties.tag.any Scalar.isLocalTag)

def scalar? (properties : Properties) (text : List Char) (plain : Bool) : Option Json :=
  match properties.tag with
  | some tag => if Scalar.isLocalTag tag then none else Scalar.tagged? tag text
  | none => if plain then Scalar.plain? text else some (.str (String.ofList text))

/-- The text of the key at a position; with the number of aliases followed so far. -/
def key? (graph : Graph) (jumps position : Nat) : Option (String × Nat) :=
  match graph.events[position]? with
  | some (.scalar _ text _) => some (String.ofList text, jumps)
  | some (.alias _) =>
      match (graph.anchors.target? position).bind fun target => graph.events[target]? with
      | some (.scalar _ text _) =>
          if jumps < graph.events.size * aliasFactor then some (String.ofList text, jumps + 1)
          else none
      | _ => none
  | _ => none

mutual

/--
The value of the node at a position, at most `depth` levels of collections
deep; with the number of aliases followed so far and the position after it.
-/
def node? (graph : Graph) : (fuel : Nat) → (depth jumps position : Nat) →
    Option (Json × Nat × Nat)
  | 0, _, _, _ => none
  | fuel + 1, depth, jumps, position =>
      match graph.events[position]? with
      | some (.scalar properties text plain) =>
          (scalar? properties text plain).map fun value => (value, jumps, position + 1)
      | some (.alias _) =>
          match graph.anchors.target? position with
          | some target =>
              if jumps < graph.events.size * aliasFactor then
                (node? graph fuel depth (jumps + 1) target).map fun (value, jumps, _) =>
                  (value, jumps, position + 1)
              else none
          | none => none
      | some (.sequence properties) =>
          if isKnown properties && depth != 0 then
            (items? graph fuel (depth - 1) jumps (position + 1)).map fun (items, rest) =>
              (.arr items, rest)
          else none
      | some (.mapping properties) =>
          if isKnown properties && depth != 0 then
            (members? graph fuel (depth - 1) jumps (position + 1)).map fun (members, rest) =>
              (.obj (Object.ofList members), rest)
          else none
      | _ => none

def items? (graph : Graph) : (fuel : Nat) → (depth jumps position : Nat) →
    Option (List Json × Nat × Nat)
  | 0, _, _, _ => none
  | fuel + 1, depth, jumps, position =>
      match graph.events[position]? with
      | some .sequenceEnd => some ([], jumps, position + 1)
      | _ =>
          match node? graph fuel depth jumps position with
          | some (item, jumps, position) =>
              (items? graph fuel depth jumps position).map fun (items, rest) =>
                (item :: items, rest)
          | none => none

def members? (graph : Graph) : (fuel : Nat) → (depth jumps position : Nat) →
    Option (List (String × Json) × Nat × Nat)
  | 0, _, _, _ => none
  | fuel + 1, depth, jumps, position =>
      match graph.events[position]? with
      | some .mappingEnd => some ([], jumps, position + 1)
      | _ =>
          match graph.key? jumps position with
          | none => none
          | some (key, jumps) =>
              match node? graph fuel depth jumps (position + 1) with
              | some (value, jumps, position) =>
                  (members? graph fuel depth jumps position).map fun (members, rest) =>
                    ((key, value) :: members, rest)
              | none => none

end

end Graph

/-- The value of a Yaml text; `none` when it is no Yaml or has no value. -/
def ofText? (s : List Char) : Option Json := do
  let tokens ← Token.ofText? s
  let events ← Event.ofTokens? tokens
  if events.isEmpty then return .null
  else
    let anchors ← Anchors.collect? 0 {} events
    let graph : Graph := ⟨events.toArray, anchors⟩
    let fuel := (events.length + 3) * (2 * nestingLimit + 4)
    let (value, _) ← graph.node? fuel nestingLimit 0 0
    return value

end Yaml

end UiMarkdown
