/-!
# Cutting text

Text is cut as a list of characters.  Every function here returns pieces of
its argument in order; nothing is copied, reordered or invented, which the
small lemmas beside the definitions record.
-/

namespace UiMarkdown

namespace Text

/--
The white space characters: the separators and the control characters that
end or indent lines.  The zero width space and the byte order mark are not
among them.
-/
def isBlank (c : Char) : Bool :=
  let n := c.toNat
  (9 ≤ n && n ≤ 13) || n == 0x20 || n == 0x85 || n == 0xA0 || n == 0x1680 ||
    (0x2000 ≤ n && n ≤ 0x200A) || n == 0x2028 || n == 0x2029 || n == 0x202F ||
    n == 0x205F || n == 0x3000

def isSpaceOrTab (c : Char) : Bool :=
  c == ' ' || c == '\t'

def isAsciiBlank (c : Char) : Bool :=
  c == ' ' || (9 ≤ c.toNat && c.toNat ≤ 13)

def hexValue? (c : Char) : Option Nat :=
  let n := c.toNat
  if 48 ≤ n && n ≤ 57 then some (n - 48)
  else if 97 ≤ n && n ≤ 102 then some (n - 87)
  else if 65 ≤ n && n ≤ 70 then some (n - 55)
  else none

def allBlank (s : List Char) : Bool :=
  s.all isBlank

/-- Drop the longest run at the end whose characters all satisfy `p`. -/
def dropEnd (p : Char → Bool) : List Char → List Char
  | [] => []
  | c :: rest =>
      match dropEnd p rest with
      | [] => if p c then [] else [c]
      | kept => c :: kept

def trimStart (s : List Char) : List Char :=
  s.dropWhile isBlank

def trimEnd (s : List Char) : List Char :=
  dropEnd isBlank s

def trim (s : List Char) : List Char :=
  trimEnd (trimStart s)

def trimAscii (s : List Char) : List Char :=
  dropEnd isAsciiBlank (s.dropWhile isAsciiBlank)

def cutAt? (p : Char → Bool) : List Char → Option (List Char × List Char)
  | [] => none
  | c :: rest =>
      if p c then some ([], rest)
      else (cutAt? p rest).map fun (before, after) => (c :: before, after)

def cutOn? (pattern : List Char) : List Char → Option (List Char × List Char)
  | [] => if pattern.isEmpty then some ([], []) else none
  | c :: rest =>
      match pattern.isPrefixOf? (c :: rest) with
      | some after => some ([], after)
      | none => (cutOn? pattern rest).map fun (before, after) => (c :: before, after)

def occurs (pattern s : List Char) : Bool :=
  (cutOn? pattern s).isSome

/-- The two sides of a cut, with the separating character, are the text. -/
theorem exists_of_cutAt? {p : Char → Bool} {s before after : List Char}
    (h : cutAt? p s = some (before, after)) :
    ∃ c, p c = true ∧ s = before ++ c :: after := by
  induction s generalizing before after with
  | nil => simp [cutAt?] at h
  | cons c rest ih =>
      rw [cutAt?] at h
      split at h
      · rename_i holds
        simp only [Option.some.injEq, Prod.mk.injEq] at h
        exact ⟨c, holds, by simp [← h.1, ← h.2]⟩
      · obtain ⟨⟨before', after'⟩, cut, same⟩ := Option.map_eq_some_iff.1 h
        simp only [Prod.mk.injEq] at same
        obtain ⟨d, holds, rest_eq⟩ := ih cut
        exact ⟨d, holds, by simp [← same.1, ← same.2, rest_eq]⟩

/-- A text that starts with a pattern is the pattern and what is left. -/
theorem eq_append_of_isPrefixOf? {pattern s rest : List Char}
    (h : pattern.isPrefixOf? s = some rest) : s = pattern ++ rest := by
  induction pattern generalizing s with
  | nil =>
      cases h
      rfl
  | cons c pattern ih =>
      cases s with
      | nil => cases h
      | cons d s =>
          change (if c == d then pattern.isPrefixOf? s else none) = some rest at h
          split at h
          · rename_i same
            rw [ih h, beq_iff_eq.1 same, List.cons_append]
          · simp at h

/-- The two sides of a cut, with the pattern between them, are the text. -/
theorem eq_append_of_cutOn? {pattern s before after : List Char}
    (h : cutOn? pattern s = some (before, after)) :
    s = before ++ pattern ++ after := by
  induction s generalizing before after with
  | nil =>
      simp only [cutOn?] at h
      split at h
      · rename_i empty
        simp_all
      · simp at h
  | cons c rest ih =>
      rw [cutOn?] at h
      split at h
      · rename_i left starts
        simp only [Option.some.injEq, Prod.mk.injEq] at h
        rw [eq_append_of_isPrefixOf? starts, ← h.1, ← h.2, List.nil_append]
      · obtain ⟨⟨before', after'⟩, cut, same⟩ := Option.map_eq_some_iff.1 h
        simp only [Prod.mk.injEq] at same
        rw [ih cut, ← same.1, ← same.2]
        simp

/-- The longest runs of characters other than white space. -/
def words : List Char → List (List Char)
  | [] => []
  | c :: rest =>
      if isBlank c then words rest
      else
        match rest with
        | [] => [[c]]
        | d :: _ =>
            if isBlank d then [c] :: words rest
            else
              match words rest with
              | [] => [[c]]
              | word :: more => (c :: word) :: more

/--
The lines of a text, each with its line feed; only the last one may lack it.
The pieces concatenate to the text.
-/
def linesWithEnds : List Char → List (List Char)
  | [] => []
  | c :: rest =>
      if c == '\n' then ['\n'] :: linesWithEnds rest
      else
        match linesWithEnds rest with
        | [] => [[c]]
        | line :: more => (c :: line) :: more

/-- The lines with their ends concatenate to the text. -/
theorem flatten_linesWithEnds (s : List Char) : (linesWithEnds s).flatten = s := by
  induction s with
  | nil => rfl
  | cons c rest ih =>
      simp only [linesWithEnds]
      split
      · rename_i feed
        rw [List.flatten_cons, ih, beq_iff_eq.1 feed, List.singleton_append]
      · split
        · rename_i none
          rw [none] at ih
          simp [← ih]
        · rename_i line more some
          rw [some] at ih
          simp [← ih]

/-- Drop a line feed at the end, and one carriage return before it. -/
def dropLineFeed (line : List Char) : List Char :=
  if line.getLast? == some '\n' then
    let body := line.dropLast
    if body.getLast? == some '\r' then body.dropLast else body
  else line

def lines (s : List Char) : List (List Char) :=
  (linesWithEnds s).map dropLineFeed

def dropLineEnds (line : List Char) : List Char :=
  dropEnd (fun c => c == '\r' || c == '\n') line

/--
Replace the occurrences of a pattern from the left, after passing over the
given number of characters.
-/
def replaceAfter (pattern replacement : List Char) : Nat → List Char → List Char
  | _, [] => []
  | skip + 1, _ :: rest => replaceAfter pattern replacement skip rest
  | 0, c :: rest =>
      if pattern.isPrefixOf (c :: rest) then
        replacement ++ replaceAfter pattern replacement (pattern.length - 1) rest
      else c :: replaceAfter pattern replacement 0 rest

/-- Replace the occurrences of a nonempty pattern, from the left. -/
def replace (pattern replacement s : List Char) : List Char :=
  replaceAfter pattern replacement 0 s

def byteLength (s : List Char) : Nat :=
  s.foldr (fun c n => c.utf8Size + n) 0

/-- Add an item at the end of a list unless the list holds it. -/
def pushNew (items : List String) (item : String) : List String :=
  if items.contains item then items else items ++ [item]

end Text

def nonempty? (s : List Char) : Option (List Char) :=
  if s.isEmpty then none else some s

end UiMarkdown
