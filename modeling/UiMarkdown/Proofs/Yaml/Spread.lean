import UiMarkdown.Proofs.Mask.Spread
import UiMarkdown.Proofs.Yaml.Writer

/-!
# Written Yaml as texts spread out

The writer puts the texts and keys of a value one after the other, in any style,
with signs, indentation and escapes between them.  What it writes is these texts,
each on lines of its own, spread out.
-/

namespace UiMarkdown

namespace Yaml

open Mask (isKept isBrace Loose Spread)

/-- Texts one after the other, each after a line feed. -/
def lined (texts : List (List Char)) : List Char :=
  texts.flatMap ('\n' :: ·)

theorem lined_cons (text : List Char) (texts : List (List Char)) :
    lined (text :: texts) = '\n' :: (text ++ lined texts) := by
  rw [lined, List.flatMap_cons, List.cons_append, lined]

theorem lined_append (texts more : List (List Char)) :
    lined (texts ++ more) = lined texts ++ lined more :=
  List.flatMap_append

/-- Texts behind line feeds, and a line feed after them, start with a line feed. -/
theorem exists_lined_append_eq (texts : List (List Char)) (s : List Char) :
    ∃ rest, lined texts ++ '\n' :: s = '\n' :: rest := by
  cases texts with
  | nil => exact ⟨s, rfl⟩
  | cons text texts => exact ⟨_, by rw [lined_cons, List.cons_append]⟩

/--
A written text has the given texts spread out in it, and starts and ends in the
gaps around them: it may stand behind a gap, and before whatever has a gap for
the next line feed.
-/
def Weaves (texts : List (List Char)) (w : List Char) : Prop :=
  ∀ l s r, Mask.Gap l → Spread ('\n' :: s) r → Spread (lined texts ++ '\n' :: s) (l ++ (w ++ r))

namespace Weaves

theorem of_loose {w : List Char} (loose : Loose w) : Weaves [] w := by
  intro l s r gap rest
  rw [← List.append_assoc]
  exact rest.loosen (by decide) (gap.toLoose.append loose)

theorem append_loose {texts : List (List Char)} {w m : List Char} (weaves : Weaves texts w)
    (loose : Loose m) : Weaves texts (w ++ m) := by
  intro l s r gap rest
  rw [List.append_assoc]
  exact weaves l s (m ++ r) gap (rest.loosen (by decide) loose)

theorem gap_append {texts : List (List Char)} {w m : List Char} (between : Mask.Gap m)
    (weaves : Weaves texts w) : Weaves texts (m ++ w) := by
  intro l s r gap rest
  have whole := weaves (l ++ m) s r (gap.append between) rest
  simpa only [List.append_assoc] using whole

theorem quoted {texts : List (List Char)} {w : List Char} {c : Char} (quote : isKept c = false)
    (weaves : Weaves texts w) : Weaves texts (c :: w ++ [c]) :=
  (weaves.gap_append (.singleton quote)).append_loose (Mask.Gap.singleton quote).toLoose

theorem of_spread {s w : List Char} (spread : Spread s w) : Weaves [s] w := by
  intro l s' r gap rest
  have whole := Spread.gapOne (c := '\n') (by decide) gap (spread.append rest)
  simpa [lined] using whole

/-- Two written texts follow each other with a gap between them. -/
theorem append {texts more : List (List Char)} {w m v : List Char} (first : Weaves texts w)
    (between : Mask.Gap m) (second : Weaves more v) : Weaves (texts ++ more) (w ++ (m ++ v)) := by
  intro l s r gap rest
  have later := second m s r between rest
  rw [lined_append, List.append_assoc, List.append_assoc, List.append_assoc]
  obtain ⟨s', starts⟩ := exists_lined_append_eq more s
  rw [starts] at later ⊢
  exact first l s' _ gap later

end Weaves

/-! ## Scalars -/

theorem isKept_eq_false_of_isBreak {c : Char} (breaks : isBreak c = true) : isKept c = false := by
  simp only [isBreak, Bool.or_eq_true, beq_iff_eq] at breaks
  rcases breaks with ((((rfl | rfl) | rfl) | rfl) | rfl) <;> decide

/-- What is written for a character: a kept one stays, and any other becomes a gap. -/
structure Escapes (f : Char → List Char) : Prop where
  keeps : ∀ c, isKept c = true → f c = [c]
  gaps : ∀ c, isKept c = false → Mask.Gap (f c)

namespace Escapes

theorem singleton : Escapes fun c => [c] :=
  ⟨fun _ _ => rfl, fun _ other => .singleton other⟩

theorem quote : Escapes fun c => if c == '\'' then [c, c] else [c] := by
  constructor
  · intro c kept
    rw [if_neg]
    rw [beq_iff_eq]
    rintro rfl
    exact absurd kept (by decide)
  · intro c other
    split
    · exact .append (g := [c]) (.singleton other) (.singleton other)
    · exact .singleton other

theorem of_lookup {c letter : Char} (found : escapeLetters.lookup c = some letter) :
    isKept c = false ∧ isBrace letter = false ∧ letter ≠ 'H' := by
  have letters : ∀ pair ∈ escapeLetters,
      isKept pair.1 = false ∧ isBrace pair.2 = false ∧ pair.2 ≠ 'H' := by decide
  obtain ⟨before, after, table, -⟩ := List.lookup_eq_some_iff.1 found
  apply letters (c, letter)
  rw [table]
  exact List.mem_append_right before List.mem_cons_self

theorem isPrintable_of_isKept {c : Char} (kept : isKept c = true) :
    Style.isPrintable c = true := by
  have bounds : 0x20 ≤ c.toNat ∧ c.toNat ≤ 0x7E := by
    rw [isKept] at kept
    delta Char.isAlphanum Char.isAlpha Char.isUpper Char.isLower at kept
    simp only [isBrace, Char.isDigit, Bool.or_eq_true, Bool.and_eq_true, beq_iff_eq,
      decide_eq_true_eq] at kept
    rcases kept with (rfl | rfl) | (⟨low, high⟩ | ⟨low, high⟩) | ⟨low, high⟩
    · decide
    · decide
    all_goals
      have low' := UInt32.le_iff_toNat_le.1 low
      have high' := UInt32.le_iff_toNat_le.1 high
      simp at low' high'
      exact ⟨by omega, by omega⟩
  simp [Style.isPrintable, bounds]

theorem of_mem_writeHex (size n : Nat) : ∀ c ∈ writeHex size n, isBrace c = false ∧ c ≠ 'H' := by
  have digit : ∀ k < 16, isBrace (upperHexDigit k) = false ∧ upperHexDigit k ≠ 'H' := by decide
  induction size generalizing n with
  | zero => exact List.forall_mem_nil _
  | succ size ih =>
      rw [writeHex, List.forall_mem_append, List.forall_mem_singleton]
      exact ⟨ih _, digit (n % 16) (Nat.mod_lt _ (by decide))⟩

theorem gap_hex (mark : Char) (plain : isBrace mark = false ∧ mark ≠ 'H') (size n : Nat) :
    Mask.Gap ('\\' :: mark :: writeHex size n) := by
  refine .of_forall (List.cons_ne_nil _ _) ?_ ?_
  · rintro c ⟨⟩
    decide
  · rw [List.forall_mem_cons, List.forall_mem_cons]
    exact ⟨by decide, plain, of_mem_writeHex size n⟩

theorem escapeChar : Escapes escapeChar := by
  constructor
  · intro c kept
    rw [Yaml.escapeChar]
    split
    · rename_i letter found
      rw [(of_lookup found).1] at kept
      cases kept
    · rw [if_pos (isPrintable_of_isKept kept)]
  · intro c other
    rw [Yaml.escapeChar]
    split
    · rename_i letter found
      refine .of_forall (List.cons_ne_nil _ _) ?_ ?_
      · rintro c ⟨⟩
        decide
      · rw [List.forall_mem_cons, List.forall_mem_singleton]
        exact ⟨by decide, (of_lookup found).2⟩
    · split
      · exact .singleton other
      · split
        · exact gap_hex 'x' (by decide) 2 _
        · split
          · exact gap_hex 'u' (by decide) 4 _
          · exact gap_hex 'U' (by decide) 8 _

end Escapes

variable {f : Char → List Char}

theorem spread_cons (escapes : Escapes f) (c : Char) {s w : List Char} (rest : Spread s w) :
    Spread (c :: s) (f c ++ w) := by
  cases kept : isKept c with
  | true =>
      rw [escapes.keeps c kept]
      exact .keep kept rest
  | false => exact .gapOne kept (escapes.gaps c kept) rest

theorem spread_flatMap (escapes : Escapes f) (s : List Char) : Spread s (s.flatMap f) := by
  induction s with
  | nil => exact .nil
  | cons c s ih =>
      rw [List.flatMap_cons]
      exact spread_cons escapes c ih

theorem gap_spaces (n : Nat) : Mask.Gap (spaces (n + 1)) := by
  refine .of_unkept (by simp [spaces]) fun c mem => ?_
  rw [List.eq_of_mem_replicate mem]
  decide

theorem loose_spaces (n : Nat) : Loose (spaces n) := by
  cases n with
  | zero => exact .nil
  | succ n => exact (gap_spaces n).toLoose

theorem gap_line (indent : Nat) : Mask.Gap ('\n' :: spaces indent) :=
  .of_unkept (List.cons_ne_nil _ _)
    (List.forall_mem_cons.2 ⟨rfl, fun _ mem => List.eq_of_mem_replicate mem ▸ rfl⟩)

theorem gap_append_flatMap_spaces (escapes : Escapes f) {g : List Char} (gap : Mask.Gap g)
    (n : Nat) : Mask.Gap (g ++ (spaces n).flatMap f) := by
  induction n with
  | zero => exact (List.append_nil g).symm ▸ gap
  | succ n ih =>
      rw [spaces, List.replicate_succ', List.flatMap_append, ← List.append_assoc,
        List.flatMap_singleton]
      exact ih.append (escapes.gaps ' ' (by decide))

/-- Indented lines are a text spread out, behind the line break that they follow. -/
theorem spread_indentLines (escapes : Escapes f) (indent : Nat) (s : List Char) :
    Spread s ((indentLines indent false s).flatMap f) ∧
      ∀ u g, u ≠ [] → (∀ c ∈ u, isKept c = false) → Mask.Gap g →
        Spread (u ++ s) (g ++ (indentLines indent true s).flatMap f) := by
  induction s with
  | nil =>
      refine ⟨.nil, fun u g nonempty unkept gap => ?_⟩
      exact .gap nonempty unkept gap .nil
  | cons c s ih =>
      obtain ⟨inLine, atStart⟩ := ih
      cases breaks : isBreak c with
      | true =>
          have other := isKept_eq_false_of_isBreak breaks
          have line : Spread (c :: s) (f c ++ (indentLines indent true s).flatMap f) :=
            atStart [c] (f c) (List.cons_ne_nil c []) (List.forall_mem_singleton.2 other)
              (escapes.gaps c other)
          simp only [indentLines, breaks, if_true, List.flatMap_cons]
          exact ⟨line, fun u g nonempty unkept gap => .gap nonempty unkept gap line⟩
      | false =>
          have line := spread_cons escapes c inLine
          simp only [indentLines, breaks, Bool.false_eq_true, if_false, if_true,
            List.flatMap_append, List.flatMap_cons]
          refine ⟨line, fun u g nonempty unkept gap => ?_⟩
          rw [← List.append_assoc]
          exact .gap nonempty unkept (gap_append_flatMap_spaces escapes gap indent) line

theorem of_mem_literalSigns {s : List Char} {c : Char} (mem : c ∈ literalSigns s) :
    isBrace c = false ∧ c ≠ 'H' := by
  have signs : c ∈ ['2', '-', '+'] := by
    rw [literalSigns, List.mem_append] at mem
    rcases mem with mem | mem
    · split at mem <;> simp_all
    · split at mem
      · split at mem
        · simp_all
        · split at mem <;> simp_all
      · simp_all
  simp only [List.mem_cons, List.not_mem_nil, or_false] at signs
  rcases signs with rfl | rfl | rfl <;> decide

/-- A text in any style is the text spread out. -/
theorem weaves_writeText (indent : Nat) (s : List Char) : Weaves [s] (writeText indent s) := by
  rw [writeText]
  cases Style.ofText s with
  | plain => exact .of_spread (.refl s)
  | single =>
      have body := Weaves.of_spread (spread_indentLines .quote indent s).1
      have last (b : Bool) : Loose (if b then spaces indent else []) := by
        cases b
        · exact .nil
        · exact loose_spaces indent
      exact (body.append_loose (last _)).quoted rfl
  | double => exact (Weaves.of_spread (spread_flatMap .escapeChar s)).quoted rfl
  | literal =>
      intro l s' r gap rest
      have front : Mask.Gap (l ++ '|' :: literalSigns s ++ ['\n']) := by
        refine gap.append (.of_forall (List.cons_ne_nil _ _) ?_ ?_) |>.append (.singleton rfl)
        · rintro c ⟨⟩
          decide
        · rw [List.forall_mem_cons]
          exact ⟨by decide, fun c mem => of_mem_literalSigns mem⟩
      have body := (spread_indentLines .singleton indent s).2 ['\n'] _ (List.cons_ne_nil _ _)
        (List.forall_mem_singleton.2 rfl) front
      rw [List.flatMap_singleton'] at body
      simpa [lined] using body.append rest

/-! ## Keys and values -/

/-- A line that has ended needs no line feed after it. -/
theorem spread_endLine {s v w b : List Char} (spread : Spread s (v ++ (w ++ '\n' :: b))) :
    Spread s (v ++ (endLine w ++ b)) := by
  rw [endLine]
  split
  · rename_i breaks
    rcases List.eq_nil_or_concat' w with rfl | ⟨before, last, rfl⟩
    · cases breaks
    · rw [List.getLast?_concat] at breaks
      have other := isKept_eq_false_of_isBreak breaks
      have short := Spread.squeeze (v := v ++ before) (d := last) (e := '\n') (b := b) other rfl
        (by simpa using spread)
      simpa using short
  · simpa using spread

namespace Weaves

variable {texts more : List (List Char)} {w v : List Char}

/-- A line that follows another one, whether or not that one has ended by itself. -/
theorem append_line (indent : Nat) (first : Weaves texts w) (second : Weaves more v) :
    Weaves (texts ++ more) (endLine w ++ spaces indent ++ v) := by
  intro l s r gap rest
  have lines := first.append (gap_line indent) second l s r gap rest
  have ended := spread_endLine (v := l) (w := w) (b := spaces indent ++ v ++ r)
    (by simpa using lines)
  simpa using ended

/-- An ended line is what it was, with a gap behind it. -/
theorem ended (weaves : Weaves texts w) : Weaves texts (endLine w) := by
  rw [endLine]
  split
  · exact weaves
  · exact weaves.append_loose (Mask.Gap.singleton rfl).toLoose

end Weaves

theorem of_isNumeral {c : Char} (numeral : FloatLayout.isNumeral c = true) : isBrace c = false ∧ c ≠ 'H' := by
  constructor
  · cases brace : isBrace c with
    | false => rfl
    | true =>
        rw [isBrace, Bool.or_eq_true, beq_iff_eq, beq_iff_eq] at brace
        rcases brace with rfl | rfl <;> revert numeral <;> decide
  · rintro rfl
    revert numeral
    decide

/-- A key is written before its colon. -/
theorem exists_writeKey_eq (indent : Nat) (key : List Char) :
    ∃ w, writeKey indent key = w ++ [':'] ∧ Weaves [key] w := by
  have text := weaves_writeText (indent + 2) key
  have mark : Mask.Gap ['?', ' '] := .of_unkept (List.cons_ne_nil _ _)
    (List.forall_iff_forall_mem.1 (by decide))
  rw [writeKey]
  split
  · exact ⟨_, rfl, text⟩
  · exact ⟨['?', ' '] ++ (endLine (writeText (indent + 2) key) ++ spaces indent), by simp,
      (text.ended.append_loose (loose_spaces indent)).gap_append mark⟩

/-- A member is written as its key and its value. -/
theorem weaves_member {texts : List (List Char)} {value : List Char} (indent : Nat)
    (key : List Char) (weaves : Weaves texts value) :
    Weaves (key :: texts) (writeKey indent key ++ value) := by
  obtain ⟨w, written, first⟩ := exists_writeKey_eq indent key
  rw [written, List.append_assoc]
  exact first.append (.singleton rfl) weaves

mutual

/-- A written value has its texts and keys spread out in it. -/
theorem weaves_writeValue (indent : Nat) (afterKey : Bool) (value : Json) :
    Weaves (Mask.textsOf value) (writeValue indent afterKey value) := by
  have blank : Mask.Gap [' '] := .singleton rfl
  match value with
  | .null => exact .of_loose (w := " null".toList) (by decide)
  | .bool true => exact .of_loose (w := " true".toList) (by decide)
  | .bool false => exact .of_loose (w := " false".toList) (by decide)
  | .num n =>
      refine .of_loose (.of_forall (g := ' ' :: writeNumber n) (by rintro c ⟨⟩; rfl) ?_)
      rw [List.forall_mem_cons]
      exact ⟨by decide, fun c mem => of_isNumeral (isNumeral_of_mem_writeNumber n c mem)⟩
  | .str s => exact (weaves_writeText (indent + 2) s.toList).gap_append blank
  | .arr [] => exact .of_loose (w := " []".toList) (by decide)
  | .arr (item :: more) =>
      cases afterKey with
      | true => exact (weaves_writeItems indent (item :: more)).gap_append (gap_line indent)
      | false => exact (weaves_writeItems (indent + 2) (item :: more)).gap_append blank
  | .obj [] => exact .of_loose (w := " \x7b\x7d".toList) (by decide)
  | .obj (member :: more) =>
      cases afterKey with
      | true =>
          exact (weaves_writeMembers (indent + 2) (member :: more)).gap_append (gap_line _)
      | false => exact (weaves_writeMembers (indent + 2) (member :: more)).gap_append blank

theorem weaves_writeItems (indent : Nat) (items : List Json) :
    Weaves (Mask.textsOfItems items) (writeItems indent items) := by
  match items with
  | [] => exact .of_loose .nil
  | [item] =>
      rw [Mask.textsOfItems, Mask.textsOfItems, List.append_nil]
      exact (weaves_writeValue indent false item).gap_append (m := ['-']) (.singleton rfl)
  | item :: next :: more =>
      rw [Mask.textsOfItems, writeItems_cons_cons]
      exact ((weaves_writeValue indent false item).gap_append (.singleton rfl)).append_line indent
        (weaves_writeItems indent (next :: more))

theorem weaves_writeMembers (indent : Nat) (members : List (String × Json)) :
    Weaves (Mask.textsOfMembers members) (writeMembers indent members) := by
  match members with
  | [] => exact .of_loose .nil
  | [(key, value)] =>
      rw [Mask.textsOfMembers, Mask.textsOfMembers, List.append_nil]
      exact weaves_member indent key.toList (weaves_writeValue indent _ value)
  | (key, value) :: next :: more =>
      rw [Mask.textsOfMembers, writeMembers_cons_cons]
      exact (weaves_member indent key.toList (weaves_writeValue indent _ value)).append_line indent
        (weaves_writeMembers indent (next :: more))

end

/-- A written mapping, behind a line feed, is its texts and keys, spread out. -/
theorem spread_writeMapping {members : List (String × Json)} (nonempty : members ≠ []) :
    Spread (lined (Mask.textsOfMembers members) ++ ['\n']) ('\n' :: writeMapping members) := by
  have feed : Mask.Gap ['\n'] := .singleton rfl
  have lines := weaves_writeMembers 0 members ['\n'] [] ['\n'] feed (.gapOne rfl feed .nil)
  have ended := spread_endLine (v := ['\n']) (b := []) lines
  rw [writeMapping, if_neg (by simpa using nonempty)]
  simpa using ended

end Yaml

end UiMarkdown
