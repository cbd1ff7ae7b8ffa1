import UiMarkdown.Calendar.Style
import UiMarkdown.Template.Filter

/-!
# The date filter and the standard filters

A number, or a text that reads as one, is a count of seconds or milliseconds;
any other text may be a moment in its standard form.  A value that is none of
these passes through.
-/

namespace UiMarkdown

namespace Filter

def floatOf? : Number → Option Binary64
  | .int i => Binary64.ofInt? i
  | .float x => some x

def momentOf? : Json → Option Moment
  | .num n => (floatOf? n).bind Moment.ofNumber?
  | .str s =>
      let s := Text.trim s.toList
      match Literal.float? s with
      | some (some x) => Moment.ofNumber? x
      | some none => none
      | none => Moment.ofText? s
  | _ => none

/-- Write the moment that a value stands for, in the style that the argument names. -/
def formatDate : Filter := fun value arg =>
  match momentOf? value with
  | none => value
  | some moment =>
      let style := (nonempty? (Text.trim (arg.getD []))).getD "datetime".toList
      .str (String.ofList (moment.styled style))

def standard? (name : String) : Option Filter :=
  if name == "uppercase" then some uppercase
  else if name == "trim" then some trim
  else if name == "format_date" then some formatDate
  else none

end Filter

namespace FilterTable

def standard : FilterTable :=
  ((empty.insert "uppercase" Filter.uppercase).insert "trim" Filter.trim).insert
    "format_date" Filter.formatDate

end FilterTable

end UiMarkdown
