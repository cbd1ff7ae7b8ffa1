import UiMarkdown.Calendar.Pattern
import UiMarkdown.Text.Chars

/-!
# Date styles

A date is written by a named preset, by a locale, or by a pattern.  Where a
style is not known, the date is written with hyphens and the time to the
minute.
-/

namespace UiMarkdown

namespace DateStyle

def fallback : String := "%Y-%m-%d %H:%M"

def preset? (name : String) : Option String :=
  [("iso", "%Y-%m-%dT%H:%M:%SZ"),
    ("date", "%Y-%m-%d"),
    ("time", "%H:%M"),
    ("datetime", fallback),
    ("short", "%-m/%-d/%y"),
    ("medium", "%b %-d, %Y"),
    ("long", "%B %-d, %Y"),
    ("full", "%A, %B %-d, %Y")].lookup name

def locale? (name : String) : Option (String × String) :=
  [("POSIX", ("%m/%d/%y", "%H:%M:%S")),
    ("en_US", ("%m/%d/%Y", "%I:%M:%S %p")),
    ("en_GB", ("%d/%m/%y", "%T")),
    ("en_CA", ("%Y-%m-%d", "%I:%M:%S %p")),
    ("en_DK", ("%Y-%m-%d", "%T")),
    ("fr_FR", ("%d/%m/%Y", "%T")),
    ("it_IT", ("%d/%m/%Y", "%T")),
    ("pt_BR", ("%d/%m/%Y", "%T")),
    ("fr_CA", ("%Y-%m-%d", "%T")),
    ("sv_SE", ("%Y-%m-%d", "%T")),
    ("de_DE", ("%d.%m.%Y", "%T")),
    ("de_DE@euro", ("%d.%m.%Y", "%T")),
    ("ru_RU", ("%d.%m.%Y", "%T")),
    ("pl_PL", ("%d.%m.%Y", "%T")),
    ("es_ES", ("%d/%m/%y", "%T")),
    ("nl_NL", ("%d-%m-%y", "%T")),
    ("ja_JP", ("%Y年%m月%d日", "%H時%M分%S秒")),
    ("zh_CN", ("%Y年%m月%d日", "%H时%M分%S秒")),
    ("ko_KR", ("%Y년 %m월 %d일", "%H시 %M분 %S초"))].lookup name

/-- The pattern that an argument asks for.  A hyphen in the name of a locale is an underscore. -/
def pattern (arg : List Char) : List Char :=
  if arg.contains '%' then arg
  else
    match preset? (String.ofList arg) with
    | some pattern => pattern.toList
    | none =>
        let name := String.ofList (arg.map fun c => if c == '-' then '_' else c)
        match locale? name with
        | some (date, time) => date.toList ++ ' ' :: time.toList
        | none => fallback.toList

end DateStyle

namespace Moment

def styled (moment : Moment) (arg : List Char) : List Char :=
  match moment.format? (DateStyle.pattern arg) with
  | some text => text
  | none => (moment.format? DateStyle.fallback.toList).getD []

end Moment

end UiMarkdown
