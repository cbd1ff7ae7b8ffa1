import Mathlib.Data.List.Chain
import Mathlib.Tactic.MkIffOfInductiveProp
import UiMarkdown.Proofs.Mask.Token
import UiMarkdown.Proofs.Template.Span

/-!
# Texts that are spread out

Whatever style a text is written in, its braces, letters and digits stay as they
are, and something else comes between them only where something else was.  So a
pattern of such characters stands in the text as it was written exactly where it
stands in the text: what comes between is too short for braces, and does not
have the first letter of a stem.
-/

namespace UiMarkdown

namespace Mask

def isBrace (c : Char) : Bool :=
  c == '\x7b' || c == '\x7d'

/-- A character that is written as it is in every style: a brace, a letter or a digit. -/
def isKept (c : Char) : Bool :=
  isBrace c || c.isAlphanum

theorem isKept_of_isAlphanum {c : Char} (alphanum : c.isAlphanum = true) : isKept c = true := by
  rw [isKept, alphanum, Bool.or_true]

theorem not_isBrace_of_not_isKept {c : Char} (other : isKept c = false) : isBrace c = false := by
  rw [isKept, Bool.or_eq_false_iff] at other
  exact other.1

theorem ne_of_not_isKept {c d : Char} (other : isKept c = false) (kept : isKept d = true) :
    c ≠ d := by
  rintro rfl
  rw [other] at kept
  cases kept

/-! ## What comes between -/

/-- The second one of two characters is not the same brace as the first one. -/
def Apart (c d : Char) : Prop :=
  isBrace d = true → c ≠ d

instance : DecidableRel Apart := fun c d =>
  inferInstanceAs (Decidable (isBrace d = true → c ≠ d))

/--
What may stand before other characters that are not kept: a text that starts
with no kept character and has neither two equal braces side by side nor the
first letter of a stem.
-/
@[mk_iff]
structure Loose (g : List Char) : Prop where
  head : ∀ c ∈ g.head?, isKept c = false
  apart : g.IsChain Apart
  letter : 'H' ∉ g

instance (g : List Char) : Decidable (Loose g) :=
  haveI : Decidable (∀ c ∈ g.head?, isKept c = false) := Option.decidableForallMem _
  decidable_of_iff _ (loose_iff g).symm

/-- What may stand between kept characters: it is not empty, and does not end with a brace. -/
structure Gap (g : List Char) : Prop extends Loose g where
  nonempty : g ≠ []
  last : ∀ c ∈ g.getLast?, isBrace c = false

namespace Loose

theorem nil : Loose [] :=
  ⟨fun _ first => (nomatch first), .nil, List.not_mem_nil⟩

/-- A text without braces and without the letter need only start well. -/
theorem of_forall {g : List Char} (head : ∀ c ∈ g.head?, isKept c = false)
    (plain : ∀ c ∈ g, isBrace c = false ∧ c ≠ 'H') : Loose g := by
  refine ⟨head, ?_, fun mem => (plain _ mem).2 rfl⟩
  clear head
  induction g with
  | nil => exact .nil
  | cons c g ih =>
      rw [List.forall_mem_cons] at plain
      refine List.isChain_cons.2 ⟨fun d first brace => ?_, ih plain.2⟩
      rw [(plain.2 d (List.mem_of_mem_head? first)).1] at brace
      cases brace

theorem append {g h : List Char} (first : Loose g) (second : Loose h) : Loose (g ++ h) := by
  refine ⟨?_, ?_, ?_⟩
  · cases g with
    | nil => exact second.head
    | cons c g => exact first.head
  · refine List.isChain_append.2 ⟨first.apart, second.apart, fun c _ d head brace => ?_⟩
    rw [not_isBrace_of_not_isKept (second.head d head)] at brace
    cases brace
  · rw [List.mem_append, not_or]
    exact ⟨first.letter, second.letter⟩

/-- Something that may be followed, and a gap after it, are a gap. -/
theorem append_gap {g h : List Char} (first : Loose g) (second : Gap h) : Gap (g ++ h) := by
  refine ⟨first.append second.toLoose, fun empty => ?_, fun c last => ?_⟩
  · exact second.nonempty (List.append_eq_nil_iff.1 empty).2
  · rw [List.getLast?_append_of_ne_nil _ second.nonempty] at last
    exact second.last c last

end Loose

namespace Gap

theorem of_forall {g : List Char} (nonempty : g ≠ []) (head : ∀ c ∈ g.head?, isKept c = false)
    (plain : ∀ c ∈ g, isBrace c = false ∧ c ≠ 'H') : Gap g :=
  ⟨.of_forall head plain, nonempty,
    fun _ last => (plain _ (List.mem_of_mem_getLast? last)).1⟩

theorem append {g h : List Char} (first : Gap g) (second : Gap h) : Gap (g ++ h) :=
  first.toLoose.append_gap second

/-- Characters that are not kept are a gap. -/
theorem of_unkept {g : List Char} (nonempty : g ≠ []) (unkept : ∀ c ∈ g, isKept c = false) :
    Gap g :=
  of_forall nonempty (fun _ first => unkept _ (List.mem_of_mem_head? first)) fun c mem =>
    ⟨not_isBrace_of_not_isKept (unkept c mem), ne_of_not_isKept (unkept c mem) (by decide)⟩

theorem singleton {c : Char} (unkept : isKept c = false) : Gap [c] :=
  of_unkept (List.cons_ne_nil c []) (List.forall_mem_singleton.2 unkept)

/-- Of two characters in a gap, the second one may be left out if the first one is not kept. -/
theorem squeeze {d e : Char} {v m : List Char} (unkept : isKept d = false)
    (gap : Gap (v ++ d :: e :: m)) : Gap (v ++ d :: m) := by
  have whole : v ++ d :: e :: m = (v ++ [d]) ++ e :: m := by simp
  obtain ⟨chain, chain', -⟩ := List.isChain_append.1 (whole ▸ gap.apart)
  have letters := gap.letter
  rw [whole, List.mem_append, List.mem_cons, not_or, not_or] at letters
  have whole : v ++ d :: m = (v ++ [d]) ++ m := by simp
  refine ⟨⟨?_, ?_, ?_⟩, by simp, ?_⟩
  · intro c first
    apply gap.head
    cases v <;> exact first
  · rw [whole]
    refine List.isChain_append.2 ⟨chain, chain'.tail, fun c last f _ brace same => ?_⟩
    rw [List.getLast?_concat, Option.mem_some_iff] at last
    rw [← same, ← last, not_isBrace_of_not_isKept unkept] at brace
    cases brace
  · rw [whole, List.mem_append, not_or]
    exact ⟨letters.1, letters.2.2⟩
  · intro c last
    cases m with
    | nil =>
        rw [List.getLast?_concat, Option.mem_some_iff] at last
        exact last ▸ not_isBrace_of_not_isKept unkept
    | cons f m =>
        apply gap.last
        rw [whole, List.getLast?_append_of_ne_nil _ (List.cons_ne_nil f m)] at last
        rw [show v ++ d :: e :: f :: m = (v ++ [d, e]) ++ f :: m by simp,
          List.getLast?_append_of_ne_nil _ (List.cons_ne_nil f m)]
        exact last

/-- A gap ends with a character that is not a brace. -/
theorem exists_eq_concat {g : List Char} (gap : Gap g) :
    ∃ before last, g = before ++ [last] ∧ isBrace last = false := by
  rcases List.eq_nil_or_concat' g with rfl | ⟨before, last, rfl⟩
  · exact absurd rfl gap.nonempty
  · exact ⟨before, last, rfl, gap.last last List.getLast?_concat⟩

end Gap

/-! ## The relation -/

/--
A text and the same text spread out: kept characters stay, and other characters
that stand together become a gap.
-/
inductive Spread : List Char → List Char → Prop
  | nil : Spread [] []
  | keep {c : Char} {s w : List Char} (kept : isKept c = true) (rest : Spread s w) :
      Spread (c :: s) (c :: w)
  | gap {u g s w : List Char} (nonempty : u ≠ []) (unkept : ∀ c ∈ u, isKept c = false)
      (between : Gap g) (rest : Spread s w) : Spread (u ++ s) (g ++ w)

namespace Spread

/-- A single character that is not kept becomes a gap. -/
theorem gapOne {c : Char} {g s w : List Char} (unkept : isKept c = false) (between : Gap g)
    (rest : Spread s w) : Spread (c :: s) (g ++ w) :=
  .gap (List.cons_ne_nil c []) (List.forall_mem_singleton.2 unkept) between rest

/-- A character stays as it is. -/
theorem same (c : Char) {s w : List Char} (rest : Spread s w) : Spread (c :: s) (c :: w) := by
  cases kept : isKept c with
  | true => exact .keep kept rest
  | false => exact .gapOne kept (.singleton kept) rest

theorem refl (s : List Char) : Spread s s := by
  induction s with
  | nil => exact .nil
  | cons c s ih => exact ih.same c

theorem append {s w t v : List Char} (first : Spread s w) (second : Spread t v) :
    Spread (s ++ t) (w ++ v) := by
  induction first with
  | nil => exact second
  | keep kept _ ih => exact .keep kept ih
  | gap nonempty unkept between _ ih =>
      rw [List.append_assoc, List.append_assoc]
      exact .gap nonempty unkept between ih

theorem eq_nil {w : List Char} (spread : Spread [] w) : w = [] := by
  generalize whole : [] = s at spread
  cases spread with
  | nil => rfl
  | keep => cases whole
  | gap nonempty => exact absurd (List.append_eq_nil_iff.1 whole.symm).1 nonempty

/-- What is not kept starts with a gap. -/
theorem exists_gap {c : Char} {s w : List Char} (unkept : isKept c = false)
    (spread : Spread (c :: s) w) :
    ∃ u g s' w', c :: s = u ++ s' ∧ w = g ++ w' ∧ u ≠ [] ∧ (∀ d ∈ u, isKept d = false) ∧
      Gap g ∧ Spread s' w' := by
  generalize whole : c :: s = t at spread
  cases spread with
  | nil => cases whole
  | keep kept _ =>
      rw [← (List.cons.inj whole).1, unkept] at kept
      cases kept
  | gap nonempty others between rest =>
      exact ⟨_, _, _, _, rfl, rfl, nonempty, others, between, rest⟩

/-- A loose text may be put before a gap. -/
theorem loosen {c : Char} {s w l : List Char} (unkept : isKept c = false) (loose : Loose l)
    (spread : Spread (c :: s) w) : Spread (c :: s) (l ++ w) := by
  obtain ⟨u, g, s', w', whole, rfl, nonempty, others, between, rest⟩ := exists_gap unkept spread
  rw [whole, ← List.append_assoc]
  exact .gap nonempty others (loose.append_gap between) rest

/-- A text whose first characters are not kept is spread out with a gap there. -/
theorem exists_gap_right {d : Char} {s w : List Char} (unkept : isKept d = false)
    (spread : Spread s (d :: w)) :
    ∃ u g s' w', s = u ++ s' ∧ w = g ++ w' ∧ u ≠ [] ∧ (∀ c ∈ u, isKept c = false) ∧
      Gap (d :: g) ∧ Spread s' w' := by
  generalize whole : d :: w = v at spread
  cases spread with
  | nil => cases whole
  | keep kept _ =>
      rw [← (List.cons.inj whole).1, unkept] at kept
      cases kept
  | @gap u g s' w' nonempty others between rest =>
      cases g with
      | nil => exact absurd rfl between.nonempty
      | cons e g =>
          obtain ⟨rfl, rfl⟩ := List.cons.inj whole
          exact ⟨u, g, s', w', rfl, rfl, nonempty, others, between, rest⟩

/-- Of two characters that are not kept, the second one may be left out. -/
theorem squeeze {d e : Char} {s v b : List Char} (first : isKept d = false)
    (second : isKept e = false) (spread : Spread s (v ++ d :: e :: b)) :
    Spread s (v ++ d :: b) := by
  generalize whole : v ++ d :: e :: b = w at spread
  induction spread generalizing v with
  | nil => exact absurd whole (by simp)
  | keep kept rest ih =>
      cases v with
      | nil =>
          rw [← (List.cons.inj whole).1, first] at kept
          cases kept
      | cons c v =>
          obtain ⟨rfl, later⟩ := List.cons.inj whole
          exact .keep kept (ih later)
  | @gap u g s w nonempty unkept between rest ih =>
      rcases List.append_eq_append_iff.1 whole with ⟨m, rfl, later⟩ | ⟨m, rfl, later⟩
      · -- the gap has all of what stands before the two characters, and maybe these
        rcases m with _ | ⟨d', _ | ⟨e', m⟩⟩
        · rw [List.append_nil] at between
          exact .gap nonempty unkept between (ih (v := []) later)
        · obtain ⟨rfl, rfl⟩ := List.cons.inj later
          obtain ⟨u', g', s', b', rfl, rfl, -, others, between', rest'⟩ :=
            exists_gap_right second rest
          have joined : Gap (v ++ d :: e :: g') := by
            have both := between.append between'
            rwa [List.append_assoc] at both
          have wide := gap (s := s') (by simp [nonempty])
            (List.forall_mem_append.2 ⟨unkept, others⟩) (joined.squeeze first) rest'
          simpa using wide
        · simp only [List.cons_append, List.cons.injEq] at later
          obtain ⟨rfl, rfl, rfl⟩ := later
          have shorter := gap nonempty unkept (between.squeeze first) rest
          simpa using shorter
      · rw [List.append_assoc]
        exact .gap nonempty unkept between (ih later.symm)

/-! ## Patterns -/

/-- A text is spread out apart on the two sides of a kept character. -/
theorem exists_of_kept {c : Char} {a b w : List Char} (kept : isKept c = true)
    (spread : Spread (a ++ c :: b) w) : ∃ x y, w = x ++ c :: y ∧ Spread a x ∧ Spread b y := by
  generalize whole : a ++ c :: b = s at spread
  induction spread generalizing a with
  | nil => exact absurd whole (by simp)
  | @keep d s w kept' rest ih =>
      cases a with
      | nil =>
          obtain ⟨rfl, rfl⟩ := List.cons.inj whole
          exact ⟨[], w, rfl, .nil, rest⟩
      | cons e a =>
          obtain ⟨rfl, later⟩ := List.cons.inj whole
          obtain ⟨x, y, rfl, front, back⟩ := ih later
          exact ⟨e :: x, y, rfl, .keep kept' front, back⟩
  | @gap u g s w nonempty unkept between rest ih =>
      rcases List.append_eq_append_iff.1 whole with ⟨m, rfl, later⟩ | ⟨m, rfl, later⟩
      · cases m with
        | nil =>
            rw [List.append_nil] at nonempty unkept
            obtain ⟨x, y, rfl, front, back⟩ := ih (a := []) later
            refine ⟨g ++ x, y, by simp, ?_, back⟩
            rw [← List.append_nil a]
            exact .gap nonempty unkept between front
        | cons d m =>
            -- the character would be among those that are not kept
            obtain ⟨rfl, -⟩ := List.cons.inj later
            have other := unkept c (List.mem_append_right a List.mem_cons_self)
            rw [kept] at other
            cases other
      · obtain ⟨x, y, rfl, front, back⟩ := ih later.symm
        exact ⟨g ++ x, y, by simp, .gap nonempty unkept between front, back⟩

/-- Kept characters stay together, and what is around them is spread out by itself. -/
theorem exists_of_forall_kept {c : Char} {p a b w : List Char}
    (kept : ∀ d ∈ c :: p, isKept d = true) (spread : Spread (a ++ (c :: p ++ b)) w) :
    ∃ x y, w = x ++ (c :: p ++ y) ∧ Spread a x ∧ Spread b y := by
  induction p generalizing a c w with
  | nil => exact exists_of_kept (kept c List.mem_cons_self) spread
  | cons d p ih =>
      rw [List.forall_mem_cons] at kept
      obtain ⟨x, y, rfl, front, back⟩ := exists_of_kept kept.1 spread
      obtain ⟨x', y', rfl, front', back'⟩ := ih (a := []) kept.2 back
      rw [eq_nil front']
      exact ⟨x, y', by simp, front, back'⟩

end Spread

/--
A pattern of kept characters that never starts between kept characters, whatever
follows.
-/
structure Steady (p : List Char) : Prop where
  nonempty : p ≠ []
  kept : ∀ c ∈ p, isKept c = true
  apart : ∀ g, Gap g → ∀ w, ¬ Text.StartsIn p g w

/-- Two equal braces are a steady pattern. -/
theorem Steady.braces {c : Char} (brace : isBrace c = true) : Steady [c, c] := by
  refine ⟨List.cons_ne_nil _ _, ?_, ?_⟩
  · simp [isKept, brace]
  · intro g gap w
    obtain ⟨before, last, rfl, other⟩ := gap.exists_eq_concat
    apply Text.StartsIn.not_of_last_not_mem
    · rintro ⟨u, v, whole⟩
      have chain := gap.apart
      rw [← whole, List.append_assoc] at chain
      have pair := (List.isChain_append.1 (List.isChain_append.1 chain).2.1).1
      rw [List.isChain_cons_cons] at pair
      exact pair.1 brace rfl
    · intro mem
      have same : last = c := by simpa using mem
      rw [same, brace] at other
      cases other

theorem steady_opening : Steady Template.opening :=
  .braces rfl

theorem steady_closing : Steady Template.closing :=
  .braces rfl

/-- A word with the first letter of a stem is a steady pattern. -/
theorem Steady.stem (growths : Nat) : Steady (stemOf growths) := by
  refine ⟨stemOf_ne_nil growths, fun c mem => isKept_of_isAlphanum ?_, fun g gap w => ?_⟩
  · have inToken : c ∈ token (stemOf growths) 0 := by
      rw [token, List.append_assoc]
      exact List.mem_append_left _ mem
    exact isAlphanum_of_mem_token inToken
  · rw [stemOf_eq_cons]
    exact Text.StartsIn.not_of_head_not_mem gap.letter

namespace Spread

/-- Kept characters at the start of a text stand at the start of what was spread out. -/
theorem exists_of_prefix {p s y : List Char} (kept : ∀ c ∈ p, isKept c = true)
    (spread : Spread s (p ++ y)) : ∃ b, s = p ++ b ∧ Spread b y := by
  induction p generalizing s with
  | nil => exact ⟨s, rfl, spread⟩
  | cons c p ih =>
      rw [List.forall_mem_cons] at kept
      rw [List.cons_append] at spread
      generalize whole : c :: (p ++ y) = w at spread
      cases spread with
      | nil => cases whole
      | keep _ rest =>
          obtain ⟨rfl, rfl⟩ := List.cons.inj whole
          obtain ⟨b, rfl, back⟩ := ih kept.2 rest
          exact ⟨b, rfl, back⟩
      | @gap u g _ _ _ _ between _ =>
          cases g with
          | nil => exact absurd rfl between.nonempty
          | cons d g =>
              obtain ⟨rfl, -⟩ := List.cons.inj whole
              have other := between.head c rfl
              rw [kept.1] at other
              cases other

/-- Where a steady pattern stands in a spread text, it stands in the text. -/
theorem exists_of_steady {p s x y : List Char} (steady : Steady p)
    (spread : Spread s (x ++ (p ++ y))) :
    ∃ a b, s = a ++ (p ++ b) ∧ Spread a x ∧ Spread b y := by
  generalize whole : x ++ (p ++ y) = w at spread
  induction spread generalizing x with
  | nil =>
      have empty := (List.append_eq_nil_iff.1 (List.append_eq_nil_iff.1 whole).2).1
      exact absurd empty steady.nonempty
  | @keep c s w kept rest ih =>
      cases x with
      | nil =>
          rw [List.nil_append] at whole
          obtain ⟨b, split, back⟩ := exists_of_prefix steady.kept (whole ▸ keep kept rest)
          exact ⟨[], b, split, .nil, back⟩
      | cons d x =>
          obtain ⟨rfl, later⟩ := List.cons.inj whole
          obtain ⟨a, b, rfl, front, back⟩ := ih later
          exact ⟨d :: a, b, rfl, .keep kept front, back⟩
  | @gap u g s w nonempty unkept between rest ih =>
      obtain ⟨x', rfl, later⟩ := Text.exists_of_not_startsIn (steady.apart g between w) whole.symm
        (List.prefix_append p y)
      obtain ⟨a, b, rfl, front, back⟩ := ih later.symm
      exact ⟨u ++ a, b, by simp, .gap nonempty unkept between front, back⟩

/-- A steady pattern stands in a text exactly when it stands in the spread text. -/
theorem infix_iff {p s w : List Char} (steady : Steady p) (spread : Spread s w) :
    p <:+: s ↔ p <:+: w := by
  constructor
  · rintro ⟨a, b, rfl⟩
    rw [List.append_assoc] at spread
    obtain ⟨c, p, rfl⟩ := List.exists_cons_of_ne_nil steady.nonempty
    obtain ⟨x, y, rfl, -, -⟩ := exists_of_forall_kept steady.kept spread
    exact ⟨x, y, by simp⟩
  · rintro ⟨x, y, rfl⟩
    rw [List.append_assoc] at spread
    obtain ⟨a, b, rfl, -, -⟩ := exists_of_steady steady spread
    exact ⟨a, b, by simp⟩

/-- A text has a span exactly when the spread text has one. -/
theorem hasSpan_iff {s w : List Char} (spread : Spread s w) :
    Template.HasSpan s ↔ Template.HasSpan w := by
  have shape (before body after : List Char) :
      before ++ (Template.Piece.span body).text ++ after =
        before ++ (Template.opening ++ (body ++ (Template.closing ++ after))) := by
    simp [Template.Piece.text]
  constructor
  · rintro ⟨before, body, after, rfl⟩
    rw [shape] at spread
    obtain ⟨x, y, rfl, -, rest⟩ := exists_of_forall_kept steady_opening.kept spread
    obtain ⟨x', y', rfl, -, -⟩ := exists_of_forall_kept steady_closing.kept rest
    exact ⟨x, x', y', (shape x x' y').symm⟩
  · rintro ⟨before, body, after, rfl⟩
    rw [shape] at spread
    obtain ⟨a, b, rfl, -, rest⟩ := exists_of_steady steady_opening spread
    obtain ⟨a', b', rfl, -, -⟩ := exists_of_steady steady_closing rest
    exact ⟨a, a', b', (shape a a' b').symm⟩

end Spread

end Mask

end UiMarkdown
