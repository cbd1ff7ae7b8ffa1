/-!
# Yaml tokens

The tokens of a Yaml text.  Indentation has become tokens of its own, so that
the structure can be read from the tokens alone.
-/

namespace UiMarkdown

namespace Yaml

inductive Token where
  | version (major minor : Nat)
  | tagHandle (handle expansion : List Char)
  | documentStart
  | documentEnd
  | blockSequence
  | blockMapping
  | blockEnd
  | flowSequence
  | flowSequenceEnd
  | flowMapping
  | flowMappingEnd
  | blockEntry
  | flowEntry
  | key
  | value
  | alias (name : List Char)
  | anchor (name : List Char)
  | tag (handle suffix : List Char)
  | scalar (text : List Char) (plain : Bool)
  | streamEnd
  deriving DecidableEq, Repr

end Yaml

end UiMarkdown
