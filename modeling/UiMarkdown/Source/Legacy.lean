import UiMarkdown.Source.Error
import UiMarkdown.Number.Decimal

/-!
# Legacy references

Queries used to name each other by a sigil.  Such a text is refused, except
where it names the current value of a pipe or one of the allowed authors.
-/

namespace UiMarkdown

namespace Legacy

/-- The fields whose texts have rules of their own, also below them. -/
def pipeFields : List String := ["from", "with", "authors"]

def isAllowed (authors : List String) (field : Option String) (s : List Char) : Bool :=
  match field with
  | some name =>
      if name == "from" || name == "with" then "$item.".toList.isPrefixOf s
      else if name == "authors" then authors.any fun author => author.toList.isPrefixOf s
      else false
  | none => false

def innerField (field : Option String) (key : String) : String :=
  match field with
  | some name => if pipeFields.contains name then name else key
  | none => key

mutual

def find? (authors : List String) (path : String) (field : Option String) :
    Json → Option CompileError
  | .str s =>
      if s.toList.head? == some '$' && !isAllowed authors field s.toList then
        some (.ofLegacy path s)
      else none
  | .arr items => findItem? authors path field 0 items
  | .obj members => findMember? authors path field members
  | _ => none

def findItem? (authors : List String) (path : String) (field : Option String) (position : Nat) :
    List Json → Option CompileError
  | [] => none
  | item :: more =>
      let inner := path ++ "[" ++ String.ofList (Nat.toDigits 10 position) ++ "]"
      match find? authors inner field item with
      | some error => some error
      | none => findItem? authors path field (position + 1) more

def findMember? (authors : List String) (path : String) (field : Option String) :
    List (String × Json) → Option CompileError
  | [] => none
  | (key, value) :: more =>
      match find? authors (path ++ "." ++ key) (some (innerField field key)) value with
      | some error => some error
      | none => findMember? authors path field more

end

/-- The first refused text in the queries, which are in no field. -/
def check? (authors : List String) (queries : Object) : Option CompileError :=
  queries.findSome? fun (name, value) => find? authors ("queries." ++ name) none value

end Legacy

end UiMarkdown
