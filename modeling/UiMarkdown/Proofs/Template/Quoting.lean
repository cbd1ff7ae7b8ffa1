import Mathlib.Data.List.DropRight
import UiMarkdown.Proofs.Template.Expression

/-!
# Quotes in expressions

An expression is cut twice: at `||` into alternatives, and each alternative at `|`
into its head and its stages.  Both cuts pass over quoted text, but only the first
one knows that a backslash takes the next character along.  Here an expression is
read into characters that remember what the first scan knew of them, and what
the second scan makes of an alternative is compared with that.
-/

namespace UiMarkdown

namespace Expression

/-- The quote that is open behind a character which is not escaped. -/
def turn (quote : Option Char) (c : Char) : Option Char :=
  match quote with
  | none => if isQuote c then some c else none
  | some q => if c == q then none else some q

/--
A character as the scan for alternatives sees it: whether a backslash takes it
along, and which quote is open before it.
-/
structure Seen where
  char : Char
  escaped : Bool
  quote : Option Char
  deriving DecidableEq, Repr

namespace Seen

/-- A bar that is neither escaped nor quoted. -/
def separates (seen : Seen) : Bool :=
  seen.char == '|' && !seen.escaped && seen.quote.isNone

def after (seen : Seen) : Option Char :=
  if seen.escaped || seen.char == '\\' then seen.quote else turn seen.quote seen.char

/-- If the character is an escaped quote or bar, then it stands inside quotes of another kind. -/
def Tame (seen : Seen) : Prop :=
  seen.escaped = true → isQuote seen.char = true ∨ seen.char = '|' →
    seen.quote ≠ none ∧ seen.quote ≠ some seen.char

instance (seen : Seen) : Decidable seen.Tame :=
  inferInstanceAs (Decidable (_ → _ → _ ∧ _))

theorem separates_iff {seen : Seen} :
    seen.separates = true ↔ seen.char = '|' ∧ seen.escaped = false ∧ seen.quote = none := by
  simp [separates, and_assoc]

end Seen

def scan : (quote : Option Char) → List Char → List Seen
  | _, [] => []
  | quote, ['\\'] => [⟨'\\', false, quote⟩]
  | quote, '\\' :: c :: rest => ⟨'\\', false, quote⟩ :: ⟨c, true, quote⟩ :: scan quote rest
  | quote, c :: rest => ⟨c, false, quote⟩ :: scan (turn quote c) rest

/-- The parts between two separating bars that stand side by side. -/
def cutPairs : List Seen → List (List Seen)
  | [] => [[]]
  | [x] => [[x]]
  | x :: y :: rest =>
      if x.separates && y.separates then [] :: cutPairs rest
      else (cutPairs (y :: rest)).modifyHead (x :: ·)

def trimSeen (part : List Seen) : List Seen :=
  (part.dropWhile fun x => Text.isBlank x.char).rdropWhile fun x => Text.isBlank x.char

def seenAlternatives (s : List Char) : List (List Seen) :=
  (cutPairs (scan none s)).map trimSeen

/-- The parts of an alternative between the bars that the scan for alternatives saw as separators. -/
def seenStages (alternative : List Seen) : List (List Char) :=
  (alternative.splitOnP Seen.separates).map (·.map Seen.char)

/-! ## The alternatives are those of the expression -/

/-- The scan loses no character. -/
theorem map_char_scan (quote : Option Char) (s : List Char) :
    (scan quote s).map Seen.char = s := by
  fun_induction scan quote s <;> simp_all

theorem cutPairs_ne_nil (seen : List Seen) : cutPairs seen ≠ [] := by
  fun_induction cutPairs seen with
  | case1 => simp
  | case2 => simp
  | case3 => simp
  | case4 x y rest apart ih =>
      obtain ⟨part, parts, whole⟩ := List.exists_cons_of_ne_nil ih
      simp [whole]

/-- A character that starts no pair of separators belongs to the first part. -/
theorem cutPairs_cons {x : Seen} {rest : List Seen}
    (apart : ∀ y ∈ rest.head?, ¬ (x.separates = true ∧ y.separates = true)) :
    cutPairs (x :: rest) = (cutPairs rest).modifyHead (x :: ·) := by
  cases rest with
  | nil => rfl
  | cons y rest =>
      have here := apart y rfl
      simp [cutPairs, here]

theorem consFirst_map_char (x : Seen) {parts : List (List Seen)} (nonempty : parts ≠ []) :
    consFirst x.char (parts.map (·.map Seen.char)) =
      (parts.modifyHead (x :: ·)).map (·.map Seen.char) := by
  cases parts with
  | nil => exact absurd rfl nonempty
  | cons part parts => simp [consFirst]

theorem splitAlternatives_eq (quote : Option Char) (s : List Char) :
    splitAlternatives quote s = (cutPairs (scan quote s)).map (·.map Seen.char) := by
  fun_induction splitAlternatives quote s with
  | case1 quote => simp [scan, cutPairs]
  | case2 quote => simp [scan, cutPairs]
  | case3 quote c rest ih =>
      rw [scan, cutPairs_cons (by simp [Seen.separates]), cutPairs_cons (by simp [Seen.separates]),
        ih, consFirst_map_char ⟨c, true, quote⟩ (cutPairs_ne_nil _),
        consFirst_map_char ⟨'\\', false, quote⟩]
      simpa using cutPairs_ne_nil _
  | case4 rest ih => simp [scan, turn, isQuote, cutPairs, Seen.separates, ih]
  | case5 c rest last escaped separator ih =>
      have turned : turn none c = if isQuote c then some c else none := rfl
      rw [scan, ih, ← turned, consFirst_map_char ⟨c, false, none⟩ (cutPairs_ne_nil _), cutPairs_cons]
      · rintro y first ⟨here, there⟩
        obtain ⟨rfl, -, -⟩ := Seen.separates_iff.1 here
        obtain ⟨bar, -, -⟩ := Seen.separates_iff.1 there
        -- the next character would be a second bar
        obtain ⟨more, whole⟩ := List.head?_eq_some_iff.1 first
        have chars := map_char_scan (turn none '|') rest
        rw [whole, List.map_cons, bar] at chars
        exact separator _ rfl chars.symm
      · exact last
      · exact escaped
  | case6 q c rest last escaped ih =>
      have turned : turn (some q) c = if c == q then none else some q := rfl
      rw [scan, ih, ← turned, consFirst_map_char ⟨c, false, some q⟩ (cutPairs_ne_nil _), cutPairs_cons]
      · simp [Seen.separates]
      · exact last
      · exact escaped

theorem map_char_trimSeen (part : List Seen) :
    (trimSeen part).map Seen.char = Text.trim (part.map Seen.char) := by
  have ended (a : List Seen) : (a.rdropWhile fun x => Text.isBlank x.char).map Seen.char =
      (a.map Seen.char).rdropWhile Text.isBlank := by
    simp [List.rdropWhile, ← List.map_reverse, List.dropWhile_map, Function.comp_def]
  have started (a : List Seen) : (a.dropWhile fun x => Text.isBlank x.char).map Seen.char =
      (a.map Seen.char).dropWhile Text.isBlank := by
    simp [List.dropWhile_map, Function.comp_def]
  rw [trimSeen, ended, started, Text.trim, Text.trimEnd, Text.trimStart,
    Text.dropEnd_eq_rdropWhile]

/-- What the scan sees are the alternatives. -/
theorem alternatives_eq_map_seen (s : List Char) :
    alternatives s = (seenAlternatives s).map (·.map Seen.char) := by
  simp [alternatives, seenAlternatives, splitAlternatives_eq, map_char_trimSeen]

/-! ## The open quotes follow from one another -/

/-- Each character remembers the quote that those before it leave open. -/
def Follows : (quote : Option Char) → List Seen → Prop
  | _, [] => True
  | quote, x :: rest => x.quote = quote ∧ Follows x.after rest

theorem follows_scan (quote : Option Char) (s : List Char) : Follows quote (scan quote s) := by
  fun_induction scan quote s with
  | case1 => trivial
  | case2 => exact ⟨rfl, trivial⟩
  | case3 quote c rest ih => exact ⟨rfl, rfl, by simpa [Seen.after] using ih⟩
  | case4 quote c rest last escaped ih =>
      have apart := ne_backslash last escaped
      exact ⟨rfl, by simpa [Seen.after, apart] using ih⟩

theorem Follows.of_append {quote : Option Char} {part more : List Seen}
    (follows : Follows quote (part ++ more)) : Follows quote part := by
  induction part generalizing quote with
  | nil => trivial
  | cons x part ih => exact ⟨follows.1, ih follows.2⟩

/-- The first part starts where the text does, and no quote is open where another one starts. -/
theorem Follows.cutPairs {quote : Option Char} {seen : List Seen} (follows : Follows quote seen) :
    ∃ part parts, Expression.cutPairs seen = part :: parts ∧ Follows quote part ∧
      ∀ other ∈ parts, Follows none other := by
  fun_induction Expression.cutPairs seen generalizing quote with
  | case1 => exact ⟨[], [], rfl, trivial, by simp⟩
  | case2 x => exact ⟨[x], [], rfl, follows, by simp⟩
  | case3 x y rest both ih =>
      rw [Bool.and_eq_true, Seen.separates_iff, Seen.separates_iff] at both
      have behind : y.after = none := by simp [Seen.after, turn, both, isQuote]
      obtain ⟨part, parts, whole, first, others⟩ := ih (behind ▸ follows.2.2)
      exact ⟨[], part :: parts, by rw [whole], trivial, List.forall_mem_cons.2 ⟨first, others⟩⟩
  | case4 x y rest apart ih =>
      obtain ⟨part, parts, whole, first, others⟩ := ih follows.2
      exact ⟨x :: part, parts, by rw [whole, List.modifyHead_cons], ⟨follows.1, first⟩, others⟩

theorem Follows.trimSeen {part : List Seen} (follows : Follows none part) :
    Follows none (Expression.trimSeen part) := by
  have started : Follows none (part.dropWhile fun x => Text.isBlank x.char) := by
    induction part with
    | nil => trivial
    | cons x part ih =>
        cases blank : Text.isBlank x.char with
        | false => simpa [blank] using follows
        | true =>
            have behind : x.after = none := by
              simp [Seen.after, follows.1, turn, isQuote_of_isBlank blank]
            simpa [blank] using ih (behind ▸ follows.2)
  obtain ⟨ending, whole⟩ := List.rdropWhile_prefix (fun x : Seen => Text.isBlank x.char)
    (l := part.dropWhile fun x => Text.isBlank x.char)
  rw [← whole] at started
  exact started.of_append

theorem follows_of_mem_seenAlternatives {s : List Char} {alternative : List Seen}
    (mem : alternative ∈ seenAlternatives s) : Follows none alternative := by
  obtain ⟨part, among, rfl⟩ := List.mem_map.1 mem
  obtain ⟨first, others, whole, starts, later⟩ := (follows_scan none s).cutPairs
  rw [whole] at among
  rcases List.mem_cons.1 among with rfl | among
  · exact starts.trimSeen
  · exact (later part among).trimSeen

/-! ## What the second scan makes of an alternative -/

/-- The quote that is open behind a text in which a backslash stands for itself. -/
def openQuote (s : List Char) : Option Char :=
  s.foldl turn none

theorem splitOutsideQuotes_cons (quote : Option Char) (c : Char) (rest : List Char) :
    splitOutsideQuotes '|' quote (c :: rest) =
      if c = '|' ∧ quote = none then [] :: splitOutsideQuotes '|' (turn quote c) rest
      else consFirst c (splitOutsideQuotes '|' (turn quote c) rest) := by
  cases quote with
  | some q => simp [splitOutsideQuotes, turn]
  | none =>
      rw [splitOutsideQuotes]
      split
      · rename_i isQuoted
        have apart : c ≠ '|' := by
          rintro rfl
          exact absurd isQuoted (by decide)
        simp [turn, isQuoted, apart]
      · rename_i plain
        have turned : turn none c = none := by simp [turn, plain]
        simp [turned]

theorem seenStages_ne_nil (alternative : List Seen) : seenStages alternative ≠ [] := by
  simp [seenStages, List.splitOnP_ne_nil]

theorem seenStages_cons (x : Seen) (rest : List Seen) :
    seenStages (x :: rest) =
      if x.separates then [] :: seenStages rest else consFirst x.char (seenStages rest) := by
  rw [seenStages, List.splitOnP_cons_eq_if_modifyHead]
  split
  · rfl
  · exact (consFirst_map_char x (List.splitOnP_ne_nil _ _)).symm

theorem consFirst_inj {c : Char} {parts others : List (List Char)} (nonempty : parts ≠ [])
    (nonempty' : others ≠ []) : consFirst c parts = consFirst c others ↔ parts = others := by
  cases parts with
  | nil => exact absurd rfl nonempty
  | cons part parts =>
      cases others with
      | nil => exact absurd rfl nonempty'
      | cons other others => simp [consFirst]

theorem consFirst_ne_nil_cons (c : Char) (parts others : List (List Char)) :
    consFirst c parts ≠ [] :: others := by
  cases parts <;> simp [consFirst]

/-- A list is split at its first element or behind it. -/
theorem forall_split_cons {α : Type} {y : α} {rest : List α} {p : List α → α → Prop} :
    (∀ before x after, y :: rest = before ++ x :: after → p before x) ↔
      p [] y ∧ ∀ before x after, rest = before ++ x :: after → p (y :: before) x := by
  constructor
  · intro holds
    refine ⟨holds [] y rest rfl, ?_⟩
    rintro before x after rfl
    exact holds (y :: before) x after rfl
  · rintro ⟨here, later⟩ (_ | ⟨z, before⟩) x after whole
    · obtain ⟨rfl, -⟩ := List.cons.inj whole
      exact here
    · obtain ⟨rfl, inner⟩ := List.cons.inj whole
      exact later before x after inner

/-- Two scans cut a text into the same parts exactly when they read every bar of it alike. -/
theorem splitOutsideQuotes_eq_iff (quote : Option Char) (alternative : List Seen) :
    splitOutsideQuotes '|' quote (alternative.map Seen.char) = seenStages alternative ↔
      ∀ before x after, alternative = before ++ x :: after → x.char = '|' →
        (x.separates = true ↔ (before.map Seen.char).foldl turn quote = none) := by
  induction alternative generalizing quote with
  | nil => simp [splitOutsideQuotes, seenStages]
  | cons y rest ih =>
      rw [forall_split_cons]
      simp only [List.map_nil, List.map_cons, List.foldl_nil, List.foldl_cons]
      rw [← ih, splitOutsideQuotes_cons, seenStages_cons]
      have bar : y.separates = true → y.char = '|' := fun separates =>
        (Seen.separates_iff.1 separates).1
      by_cases cut : y.char = '|' ∧ quote = none
      · by_cases separates : y.separates = true
        · simp [cut, separates]
        · simp [cut, separates, (consFirst_ne_nil_cons _ _ _).symm]
      · by_cases separates : y.separates = true
        · have opened : quote ≠ none := fun shut => cut ⟨bar separates, shut⟩
          simp [separates, bar separates, opened, consFirst_ne_nil_cons]
        · rw [if_neg cut, if_neg separates,
            consFirst_inj (splitOutsideQuotes_ne_nil _ _ _) (seenStages_ne_nil _)]
          have here : y.char = '|' → (y.separates = true ↔ quote = none) := fun isBar =>
            iff_of_false separates fun shut => cut ⟨isBar, shut⟩
          exact (and_iff_right here).symm

theorem isQuote_of_turn {quote : Option Char} (delimits : ∀ q ∈ quote, isQuote q = true)
    (c : Char) : ∀ q ∈ turn quote c, isQuote q = true := by
  cases quote with
  | none =>
      simp only [turn]
      split <;> simp_all
  | some q =>
      simp only [turn]
      split <;> simp_all

/-- Behind a tame character both scans have the same quote open, if they had before it. -/
theorem Seen.after_eq_turn {x : Seen} (tame : x.Tame)
    (delimits : ∀ q ∈ x.quote, isQuote q = true) : x.after = turn x.quote x.char := by
  have still (plain : isQuote x.char = false) : turn x.quote x.char = x.quote := by
    cases opened : x.quote with
    | none => simp [turn, plain]
    | some q =>
        have apart : x.char ≠ q := by
          rintro rfl
          simp [delimits _ opened] at plain
        simp [turn, apart]
  by_cases backslash : x.char = '\\'
  · rw [still (by simp [backslash, isQuote]), Seen.after]
    simp [backslash]
  · cases escaped : x.escaped with
    | false => simp [Seen.after, escaped, backslash]
    | true =>
        have kept : x.after = x.quote := by simp [Seen.after, escaped]
        cases quotes : isQuote x.char with
        | false => rw [kept, still quotes]
        | true =>
            obtain ⟨opened, apart⟩ := tame escaped (.inl quotes)
            obtain ⟨q, quote⟩ := Option.ne_none_iff_exists'.1 opened
            have other : x.char ≠ q := by
              rintro rfl
              exact apart quote
            simp [kept, turn, quote, other]

/-- Where all characters are tame, both scans have the same quote open everywhere. -/
theorem foldl_turn_of_tame {quote : Option Char} {alternative : List Seen}
    (delimits : ∀ q ∈ quote, isQuote q = true) (follows : Follows quote alternative)
    (tame : ∀ x ∈ alternative, x.Tame) :
    ∀ before x after, alternative = before ++ x :: after →
      (before.map Seen.char).foldl turn quote = x.quote := by
  induction alternative generalizing quote with
  | nil => simp
  | cons y rest ih =>
      obtain ⟨rfl, later⟩ := follows
      rw [Seen.after_eq_turn (tame y List.mem_cons_self) delimits] at later
      rw [forall_split_cons]
      exact ⟨rfl, ih (isQuote_of_turn delimits y.char) later
        fun x mem => tame x (List.mem_cons_of_mem y mem)⟩

/--
The alternatives of an expression are what the scan for them sees.  The stages of an
alternative are cut at the bars that this scan saw as separators exactly when every bar
of it is a separator just in case no quote is open before it for a scan that takes no
notice of backslashes; and so it is whenever each escaped quote or bar of the
alternative stands inside quotes of another kind.
-/
theorem stages_cut_as_seen (s : List Char) :
    alternatives s = (seenAlternatives s).map (·.map Seen.char) ∧
      ∀ alternative ∈ seenAlternatives s,
        (stages (alternative.map Seen.char) = seenStages alternative ↔
          ∀ before x after, alternative = before ++ x :: after → x.char = '|' →
            (x.separates = true ↔ openQuote (before.map Seen.char) = none)) ∧
        ((∀ x ∈ alternative, x.Tame) →
          stages (alternative.map Seen.char) = seenStages alternative) := by
  refine ⟨alternatives_eq_map_seen s, fun alternative mem => ?_⟩
  have alike := splitOutsideQuotes_eq_iff none alternative
  refine ⟨alike, fun tame => alike.2 fun before x after whole bar => ?_⟩
  rw [foldl_turn_of_tame (by simp) (follows_of_mem_seenAlternatives mem) tame before x after whole,
    Seen.separates_iff, and_iff_right bar, and_iff_right_iff_imp]
  intro shut
  by_contra escaped
  rw [Bool.not_eq_false] at escaped
  exact (tame x (by simp [whole]) escaped (.inr bar)).1 shut

/--
Inside double quotes neither an escaped apostrophe nor a bar counts, and the
stage after them is cut off.
-/
theorem stages_cut_as_seen_in_quotes :
    let s := "x || \"it\\'s | a\" | trim".toList
    let alternative := (seenAlternatives s).getLastD []
    alternative ∈ seenAlternatives s ∧ (∀ x ∈ alternative, x.Tame) ∧
      stages (alternative.map Seen.char) = seenStages alternative ∧
      seenStages alternative = ["\"it\\'s | a\" ".toList, " trim".toList] := by
  intro s alternative
  have mem : alternative ∈ seenAlternatives s := by decide +kernel
  have tame : ∀ x ∈ alternative, x.Tame := by decide +kernel
  exact ⟨mem, tame, ((stages_cut_as_seen s).2 alternative mem).2 tame, by decide +kernel⟩

/-- A quoted text with an escaped quote of its own kind swallows the stage after it. -/
theorem not_stages_cut_as_seen_of_escape :
    let s := "'it\\'s' | uppercase".toList
    alternatives s = [s] ∧ stages s = [s] ∧
      (seenAlternatives s).map seenStages = [["'it\\'s' ".toList, " uppercase".toList]] ∧
      ¬ ∀ s, ∀ alternative ∈ seenAlternatives s,
        stages (alternative.map Seen.char) = seenStages alternative := by
  intro s
  refine ⟨by decide +kernel, by decide +kernel, by decide +kernel, ?_⟩
  intro everywhere
  have swallowed := everywhere s ((seenAlternatives s).headD []) (by decide +kernel)
  exact absurd swallowed (by decide +kernel)

end Expression

end UiMarkdown
