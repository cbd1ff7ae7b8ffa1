import UiMarkdown.Json.Basic
import UiMarkdown.Text.Chars
import UiMarkdown.Text.Case
import UiMarkdown.Text.Quoted

/-!
# Filters

A filter maps a value and an optional argument to a value.  Filters are looked
up by name; a name without a filter leaves values as they are, so that a stage
with a misspelled name does not stop an expression.
-/

namespace UiMarkdown

abbrev Filter := Json → Option (List Char) → Json

namespace Filter

def onText (f : List Char → List Char) : Filter
  | .str s, _ => .str (String.ofList (f s.toList))
  | value, _ => value

def uppercase : Filter :=
  onText Text.upper

def trim : Filter :=
  onText Text.trim

end Filter

/-- Filters by name, in ascending order of their names. -/
structure FilterTable where
  entries : List (String × Filter)

namespace FilterTable

def empty : FilterTable := ⟨[]⟩

def place (name : String) (filter : Filter) : List (String × Filter) → List (String × Filter)
  | [] => [(name, filter)]
  | (n, f) :: rest =>
      if name < n then (name, filter) :: (n, f) :: rest
      else if name == n then (name, filter) :: rest
      else (n, f) :: place name filter rest

def insert (table : FilterTable) (name : String) (filter : Filter) : FilterTable :=
  ⟨place name filter table.entries⟩

def get? (table : FilterTable) (name : String) : Option Filter :=
  table.entries.lookup name

def contains (table : FilterTable) (name : String) : Bool :=
  (table.get? name).isSome

/-- Apply the filter of a name; without one the value stays. -/
def apply (table : FilterTable) (name : String) (value : Json) (arg : Option (List Char)) : Json :=
  match table.get? name with
  | some filter => filter value arg
  | none => value

def describe (table : FilterTable) : String :=
  let names := table.entries.map fun (name, _) => Text.quoted name.toList
  let list := [',', ' '].intercalate names
  "FilterRegistry \x7b filters: [" ++ String.ofList list ++ "] \x7d"

end FilterTable

end UiMarkdown
