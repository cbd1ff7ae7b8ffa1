import UiMarkdown.Proofs.Mask.Lossless

/-!
# Restored texts

A token is live when its digits are the number of a span.  Putting the spans
back leaves no live token: a span starts and ends with a brace and holds no
stem, and a token without a span keeps its letters together.  Hence a text or a
value changes exactly when it holds a live token, and only once.
-/

namespace UiMarkdown

namespace Mask

/-- A text holds the token of a span: a stem, the digits of its number, and the end of a token. -/
def HoldsToken (mask : Mask) (s : List Char) : Prop :=
  ∃ digits, digits ≠ [] ∧ (∀ c ∈ digits, c.isDigit = true) ∧
    Literal.digitsValue digits < mask.spans.length ∧ mask.stem ++ digits ++ [tokenEnd] <:+: s

/-- A text holds the token of a span exactly when such a token is read somewhere in it. -/
theorem holdsToken_iff {mask : Mask} {s : List Char} :
    mask.HoldsToken s ↔ ∃ v digits rest, v <:+ s ∧
      readToken? mask.stem v = some (digits, rest) ∧
      Literal.digitsValue digits < mask.spans.length := by
  constructor
  · rintro ⟨digits, nonempty, all, live, u, rest, rfl⟩
    refine ⟨mask.stem ++ digits ++ tokenEnd :: rest, digits, rest, ⟨u, by simp⟩, ?_, live⟩
    exact readToken?_eq_some_iff.2 ⟨nonempty, all, rfl⟩
  · rintro ⟨v, digits, rest, ⟨u, rfl⟩, read, live⟩
    obtain ⟨nonempty, all, rfl⟩ := readToken?_eq_some_iff.1 read
    exact ⟨digits, nonempty, all, live, u, rest, by simp⟩

theorem HoldsToken.of_suffix {mask : Mask} {s t : List Char} (holds : mask.HoldsToken s)
    (suffix : s <:+ t) : mask.HoldsToken t := by
  obtain ⟨digits, nonempty, all, live, occurs⟩ := holds
  exact ⟨digits, nonempty, all, live, occurs.trans suffix.isInfix⟩

theorem not_holdsToken_nil (mask : Mask) : ¬ mask.HoldsToken [] := by
  rw [holdsToken_iff]
  rintro ⟨v, digits, rest, suffix, read, -⟩
  rw [List.suffix_nil.1 suffix] at read
  simp [readToken?_eq_some_iff] at read

/-- A token without a span stays. -/
theorem spanOf_of_le {mask : Mask} {digits : List Char}
    (dead : mask.spans.length ≤ Literal.digitsValue digits) :
    mask.spanOf digits = mask.stem ++ digits ++ [tokenEnd] := by
  rw [spanOf, List.getElem?_eq_none dead]

theorem spanOf_of_lt {mask : Mask} {digits : List Char}
    (live : Literal.digitsValue digits < mask.spans.length) :
    mask.spanOf digits ∈ mask.spans := by
  rw [spanOf, List.getElem?_eq_getElem live]
  exact List.getElem_mem live

/-- A text without live tokens stays. -/
theorem restoreTokens_of_not_holdsToken {mask : Mask} {s : List Char}
    (absent : ¬ mask.HoldsToken s) : mask.restoreTokens s = s := by
  fun_induction restoreTokens mask s with
  | case1 s digits rest read ih =>
      have whole := eq_append_of_readToken? read
      have later : rest <:+ s := ⟨mask.stem ++ digits ++ [tokenEnd], by simp [whole]⟩
      have dead : mask.spans.length ≤ Literal.digitsValue digits := by
        by_contra live
        exact absent (holdsToken_iff.2 ⟨s, digits, rest, List.suffix_rfl, read, by omega⟩)
      rw [spanOf_of_le dead, ih fun holds => absent (holds.of_suffix later), whole]
      simp
  | case2 => rfl
  | case3 c rest alone ih =>
      rw [ih fun holds => absent (holds.of_suffix (List.suffix_cons c rest))]

/-! ## The spans of a mask -/

/--
What masking makes: a stem of the sequence, and spans between braces in which
the stem does not occur.
-/
structure Fresh (mask : Mask) : Prop where
  stem : ∃ growths, mask.stem = stemOf growths
  braces : ∀ span ∈ mask.spans, ∃ body, span = (Template.Piece.span body).text
  absent : ∀ span ∈ mask.spans, ¬ mask.stem <:+: span

/-- The spans of a masked text are spans that stand in the text. -/
theorem exists_of_mem_maskText {stem s span : List Char} {n : Nat}
    (mem : span ∈ (maskText stem n s).2) :
    (∃ body, span = (Template.Piece.span body).text) ∧ span <:+: s := by
  induction s using Template.pieces.induct generalizing n with
  | case1 s spanless =>
      rw [maskText_of_cutSpan?_eq_none _ _ spanless] at mem
      cases mem
  | case2 s before body after cut ih =>
      have whole := Template.eq_append_of_cutSpan? cut
      rw [maskText_of_cutSpan? _ _ cut, List.mem_cons] at mem
      rcases mem with rfl | later
      · exact ⟨⟨body, rfl⟩, by rw [whole]; exact List.infix_append _ _ _⟩
      · obtain ⟨braces, occurs⟩ := ih later
        refine ⟨braces, occurs.trans ?_⟩
        rw [whole]
        exact (List.suffix_append _ _).isInfix

/-- The mask of a text is fresh. -/
theorem fresh_ofText (x : List Char) : (ofText x).2.Fresh := by
  obtain ⟨growths, stem, fresh, -⟩ := freshStem_spec [x]
  rw [List.forall_mem_singleton] at fresh
  refine ⟨⟨growths, stem⟩, fun span mem => (exists_of_mem_maskText mem).1, ?_⟩
  intro span mem occurs
  rw [show (ofText x).2.stem = stemOf growths from stem] at occurs
  exact fresh (occurs.trans (exists_of_mem_maskText mem).2)

/-! ## Texts side by side -/

namespace Fresh

variable {mask : Mask}

/-- No token runs over a character that is neither a letter nor a digit. -/
theorem restore_append_cons (fresh : mask.Fresh) {c : Char} (gap : c.isAlphanum = false)
    (a b : List Char) : mask.restore (a ++ c :: b) = mask.restore a ++ c :: mask.restore b := by
  obtain ⟨growths, stem⟩ := fresh.stem
  have alone : readToken? mask.stem (c :: b) = none := by
    refine readToken?_eq_none_of_absent fun starts => ?_
    rw [stem, stemOf_eq_cons, List.cons_prefix_cons] at starts
    rw [← starts.1] at gap
    exact absurd gap (by decide)
  rw [restore_eq_restoreTokens, restore_eq_restoreTokens, restore_eq_restoreTokens,
    restoreTokens_append, restoreTokens_cons_of_readToken? alone]
  intro u v digits rest _ _ read
  obtain ⟨-, all, whole⟩ := readToken?_eq_some_iff.1 read
  have whole : v ++ c :: b = stemOf growths ++ digits ++ [tokenEnd] ++ rest := by
    rw [whole, stem, List.append_assoc _ [tokenEnd], List.singleton_append]
  obtain ⟨tail, shape, -, alphanum⟩ := exists_cons_of_digits growths all
  rcases List.append_eq_append_iff.1 whole with ⟨inside, token, behind⟩ | ⟨after, -, behind⟩
  · cases inside with
    | nil => exact Nat.le_of_eq (congrArg List.length behind)
    | cons d inside =>
        -- the character would stand in the token
        obtain ⟨rfl, -⟩ := List.cons.inj behind
        have mem : c ∈ 'H' :: tail := by
          rw [← shape, token]
          exact List.mem_append_right _ List.mem_cons_self
        rcases List.mem_cons.1 mem with rfl | mem
        · exact absurd gap (by decide)
        · rw [alphanum c mem] at gap
          cases gap
  · rw [behind, List.length_append]
    exact Nat.le_add_left _ _

/-- A text between characters that are neither letters nor digits is restored by itself. -/
theorem infix_restore (fresh : mask.Fresh) {before after : List Char} (s : List Char)
    (front : ∀ c ∈ before.getLast?, c.isAlphanum = false)
    (back : ∀ c ∈ after.head?, c.isAlphanum = false) :
    mask.restore s <:+: mask.restore (before ++ (s ++ after)) := by
  have ended : mask.restore s <+: mask.restore (s ++ after) := by
    cases after with
    | nil => exact (List.append_nil s).symm ▸ List.prefix_rfl
    | cons c after =>
        rw [fresh.restore_append_cons (back c rfl)]
        exact List.prefix_append _ _
  rcases List.eq_nil_or_concat' before with rfl | ⟨before, c, rfl⟩
  · exact ended.isInfix
  · rw [List.append_assoc, List.singleton_append,
      fresh.restore_append_cons (front c (List.getLast?_concat ..))]
    exact ended.isInfix.trans ⟨mask.restore before ++ [c], [], by simp⟩

end Fresh

/-! ## No live token is left -/

namespace Fresh

variable {mask : Mask}

/-- What stands for a token starts with a brace or with the first letter of the stem. -/
theorem exists_spanOf_eq_cons (fresh : mask.Fresh) (digits : List Char) :
    ∃ c tail, mask.spanOf digits = c :: tail ∧ (c = '\x7b' ∨ c = 'H') := by
  rcases Nat.lt_or_ge (Literal.digitsValue digits) mask.spans.length with live | dead
  · obtain ⟨body, braces⟩ := fresh.braces _ (spanOf_of_lt live)
    exact ⟨'\x7b', _, braces, .inl rfl⟩
  · obtain ⟨growths, stem⟩ := fresh.stem
    exact ⟨'H', _, by rw [spanOf_of_le dead, stem, stemOf_eq_cons]; rfl, .inr rfl⟩

/-- The letters that a restored text starts with, without the first one of a stem, are its own. -/
theorem prefix_of_prefix_restoreTokens (fresh : mask.Fresh) {s letters : List Char}
    (alone : 'H' ∉ letters) (all : ∀ c ∈ letters, c.isAlphanum = true)
    (starts : letters <+: mask.restoreTokens s) : letters <+: s := by
  fun_induction restoreTokens mask s generalizing letters with
  | case1 s digits rest read ih =>
      cases letters with
      | nil => exact List.nil_prefix
      | cons d letters =>
          obtain ⟨c, tail, shape, head⟩ := fresh.exists_spanOf_eq_cons digits
          rw [shape, List.cons_append, List.cons_prefix_cons] at starts
          obtain ⟨rfl, -⟩ := starts
          rcases head with rfl | rfl
          · exact absurd (all _ List.mem_cons_self) (by decide)
          · exact absurd List.mem_cons_self alone
  | case2 => exact starts
  | case3 c rest unread ih =>
      cases letters with
      | nil => exact List.nil_prefix
      | cons d letters =>
          rw [List.cons_prefix_cons] at starts ⊢
          rw [List.mem_cons, not_or] at alone
          rw [List.forall_mem_cons] at all
          exact ⟨starts.1, ih alone.2 all.2 starts.2⟩

/-- No live token starts in what stands for a token. -/
theorem not_startsIn_spanOf (fresh : mask.Fresh) {digits live : List Char} (after : List Char)
    (written : digits ≠ [] ∧ ∀ c ∈ digits, c.isDigit = true)
    (nonempty : live ≠ []) (all : ∀ c ∈ live, c.isDigit = true)
    (below : Literal.digitsValue live < mask.spans.length) :
    ¬ Text.StartsIn (mask.stem ++ live ++ [tokenEnd]) (mask.spanOf digits) after := by
  obtain ⟨growths, stem⟩ := fresh.stem
  obtain ⟨tail, shape, -, alphanum⟩ := exists_cons_of_digits growths all
  rcases Nat.lt_or_ge (Literal.digitsValue digits) mask.spans.length with isSpan | dead
  · have mem := spanOf_of_lt isSpan
    obtain ⟨body, braces⟩ := fresh.braces _ mem
    have absent : ¬ mask.stem ++ live ++ [tokenEnd] <:+: mask.spanOf digits := by
      intro occurs
      apply fresh.absent _ mem
      rw [List.append_assoc] at occurs
      exact (List.prefix_append _ _).isInfix.trans occurs
    have ends : mask.spanOf digits = Template.opening ++ body ++ ['\x7d'] ++ ['\x7d'] := by
      rw [braces]
      simp [Template.Piece.text, Template.closing]
    rw [ends] at absent ⊢
    apply Text.StartsIn.not_of_last_not_mem absent
    intro brace
    rw [stem, shape, List.mem_cons] at brace
    rcases brace with same | mem
    · exact absurd same (by decide)
    · exact absurd (alphanum _ mem) (by decide)
  · obtain ⟨tail', shape', alone, -⟩ := exists_cons_of_digits growths written.2
    rw [spanOf_of_le dead, stem, shape, shape', Text.StartsIn.cons_iff, not_or]
    refine ⟨?_, Text.StartsIn.not_of_head_not_mem alone⟩
    rw [← List.cons_append, ← shape, ← shape']
    rintro ⟨rest, same⟩
    -- the live token would be the very token that has no span
    have read : readToken? (stemOf growths) (stemOf growths ++ digits ++ [tokenEnd] ++ after) =
        some (digits, after) := readToken?_eq_some_iff.2 ⟨written.1, written.2, by simp⟩
    have readLive : readToken? (stemOf growths) (stemOf growths ++ live ++ [tokenEnd] ++ rest) =
        some (live, rest) := readToken?_eq_some_iff.2 ⟨nonempty, all, by simp⟩
    rw [same, read] at readLive
    cases readLive
    omega

/-- A restored text holds no live token. -/
theorem not_holdsToken_restoreTokens (fresh : mask.Fresh) (s : List Char) :
    ¬ mask.HoldsToken (mask.restoreTokens s) := by
  fun_induction restoreTokens mask s with
  | case1 s digits rest read ih =>
      rintro ⟨live, nonempty, all, below, u, w, split⟩
      obtain ⟨nonemptyOf, allOf, -⟩ := readToken?_eq_some_iff.1 read
      have apart := fresh.not_startsIn_spanOf (mask.restoreTokens rest) ⟨nonemptyOf, allOf⟩
        nonempty all below
      rw [List.append_assoc] at split
      obtain ⟨between, -, later⟩ :=
        Text.exists_of_not_startsIn apart split.symm (List.prefix_append _ w)
      exact ih ⟨live, nonempty, all, below, between, w, by rw [later, List.append_assoc]⟩
  | case2 => exact not_holdsToken_nil mask
  | case3 c rest unread ih =>
      rintro ⟨live, nonempty, all, below, occurs⟩
      rcases List.infix_cons_iff.1 occurs with here | later
      · -- the letters after the first one would stand in the text that is read
        obtain ⟨growths, stem⟩ := fresh.stem
        obtain ⟨tail, shape, alone, alphanum⟩ := exists_cons_of_digits growths all
        rw [stem, shape, List.cons_prefix_cons] at here
        obtain ⟨w, split⟩ := fresh.prefix_of_prefix_restoreTokens alone alphanum here.2
        rw [← here.1, ← split, ← List.cons_append, ← shape, stem,
          readToken?_eq_some_iff.2 ⟨nonempty, all, List.append_assoc _ _ _⟩] at unread
        cases unread
      · exact ih ⟨live, nonempty, all, below, later⟩

end Fresh

/-! ## Strings -/

variable {mask : Mask}

theorem toList_restoreString (mask : Mask) (s : String) :
    (mask.restoreString s).toList = mask.restoreTokens s.toList := by
  rw [restoreString, String.toList_ofList, restore_eq_restoreTokens]

theorem restoreString_of_not_holdsToken {s : String} (absent : ¬ mask.HoldsToken s.toList) :
    mask.restoreString s = s := by
  rw [restoreString, restore_eq_restoreTokens, restoreTokens_of_not_holdsToken absent,
    String.ofList_toList]

theorem Fresh.not_holdsToken_restoreString (fresh : mask.Fresh) (s : String) :
    ¬ mask.HoldsToken (mask.restoreString s).toList := by
  rw [toList_restoreString]
  exact fresh.not_holdsToken_restoreTokens s.toList

theorem Fresh.restoreString_restoreString (fresh : mask.Fresh) (s : String) :
    mask.restoreString (mask.restoreString s) = mask.restoreString s :=
  restoreString_of_not_holdsToken (fresh.not_holdsToken_restoreString s)

/-! ## Values -/

theorem mem_textsOfMembers_iff {members : List (String × Json)} {text : List Char} :
    text ∈ textsOfMembers members ↔
      ∃ member ∈ members, text = member.1.toList ∨ text ∈ textsOf member.2 := by
  induction members with
  | nil => simp [textsOfMembers]
  | cons member more ih =>
      rw [textsOfMembers, List.mem_append, List.mem_cons, ih]
      simp [or_assoc]

/-- Collecting members adds no text. -/
theorem mem_textsOfMembers_of_ofList {members : List (String × Json)} {text : List Char}
    (mem : text ∈ textsOfMembers (Object.ofList members)) : text ∈ textsOfMembers members := by
  obtain ⟨member, inside, stands⟩ := mem_textsOfMembers_iff.1 mem
  exact mem_textsOfMembers_iff.2 ⟨member, Object.mem_of_mem_ofList inside, stands⟩

mutual

/-- No text or key of a restored value holds a live token. -/
theorem Fresh.not_holdsToken_restoreJson (fresh : mask.Fresh) :
    (value : Json) → ∀ text ∈ textsOf (mask.restoreJson value), ¬ mask.HoldsToken text
  | .str s => by
      rw [restoreJson, textsOf, List.forall_mem_singleton]
      exact fresh.not_holdsToken_restoreString s
  | .arr items => by
      rw [restoreJson, textsOf]
      exact fresh.not_holdsToken_restoreItems items
  | .obj members => by
      rw [restoreJson, textsOf]
      intro text mem
      exact fresh.not_holdsToken_restoreMembers members text (mem_textsOfMembers_of_ofList mem)
  | .null | .bool _ | .num _ => by
      rw [restoreJson, textsOf]
      · exact List.forall_mem_nil _
      all_goals simp

theorem Fresh.not_holdsToken_restoreItems (fresh : mask.Fresh) :
    (items : List Json) → ∀ text ∈ textsOfItems (mask.restoreItems items), ¬ mask.HoldsToken text
  | [] => by
      rw [restoreItems, textsOfItems]
      exact List.forall_mem_nil _
  | item :: more => by
      rw [restoreItems, textsOfItems, List.forall_mem_append]
      exact ⟨fresh.not_holdsToken_restoreJson item, fresh.not_holdsToken_restoreItems more⟩

theorem Fresh.not_holdsToken_restoreMembers (fresh : mask.Fresh) :
    (members : List (String × Json)) →
      ∀ text ∈ textsOfMembers (mask.restoreMembers members), ¬ mask.HoldsToken text
  | [] => by
      rw [restoreMembers, textsOfMembers]
      exact List.forall_mem_nil _
  | (key, value) :: more => by
      rw [restoreMembers, textsOfMembers, List.forall_mem_append, List.forall_mem_cons]
      exact ⟨⟨fresh.not_holdsToken_restoreString key, fresh.not_holdsToken_restoreJson value⟩,
        fresh.not_holdsToken_restoreMembers more⟩

end

mutual

/-- An ordered value without live tokens stays. -/
theorem restoreJson_of_not_holdsToken : (value : Json) → value.Ordered →
    (∀ text ∈ textsOf value, ¬ mask.HoldsToken text) → mask.restoreJson value = value
  | .str s, _, absent => by
      rw [textsOf, List.forall_mem_singleton] at absent
      rw [restoreJson, restoreString_of_not_holdsToken absent]
  | .arr items, ordered, absent => by
      rw [textsOf] at absent
      rw [Json.Ordered] at ordered
      rw [restoreJson, restoreItems_of_not_holdsToken items ordered absent]
  | .obj members, ordered, absent => by
      rw [textsOf] at absent
      rw [Json.Ordered] at ordered
      rw [restoreJson, restoreMembers_of_not_holdsToken members ordered.2 absent,
        Object.ofList_of_ascending ordered.1]
  | .null, _, _ | .bool _, _, _ | .num _, _, _ => by
      rw [restoreJson]
      all_goals simp

theorem restoreItems_of_not_holdsToken : (items : List Json) → Json.OrderedItems items →
    (∀ text ∈ textsOfItems items, ¬ mask.HoldsToken text) → mask.restoreItems items = items
  | [], _, _ => by rw [restoreItems]
  | item :: more, ordered, absent => by
      rw [Json.OrderedItems] at ordered
      rw [textsOfItems, List.forall_mem_append] at absent
      rw [restoreItems, restoreJson_of_not_holdsToken item ordered.1 absent.1,
        restoreItems_of_not_holdsToken more ordered.2 absent.2]

theorem restoreMembers_of_not_holdsToken :
    (members : List (String × Json)) → Json.OrderedMembers members →
      (∀ text ∈ textsOfMembers members, ¬ mask.HoldsToken text) →
      mask.restoreMembers members = members
  | [], _, _ => by rw [restoreMembers]
  | (key, value) :: more, ordered, absent => by
      rw [Json.OrderedMembers] at ordered
      rw [textsOfMembers, List.forall_mem_append, List.forall_mem_cons] at absent
      rw [restoreMembers, restoreString_of_not_holdsToken absent.1.1,
        restoreJson_of_not_holdsToken value ordered.1 absent.1.2,
        restoreMembers_of_not_holdsToken more ordered.2 absent.2]

end

mutual

/-- A restored value is ordered. -/
theorem ordered_restoreJson (mask : Mask) : (value : Json) → (mask.restoreJson value).Ordered
  | .arr items => by
      rw [restoreJson, Json.Ordered]
      exact ordered_restoreItems mask items
  | .obj members => by
      rw [restoreJson]
      exact Json.ordered_ofList (ordered_restoreMembers mask members)
  | .str _ | .null | .bool _ | .num _ => by
      rw [restoreJson, Json.Ordered]
      all_goals simp

theorem ordered_restoreItems (mask : Mask) :
    (items : List Json) → Json.OrderedItems (mask.restoreItems items)
  | [] => by
      rw [restoreItems, Json.OrderedItems]
      trivial
  | item :: more => by
      rw [restoreItems, Json.OrderedItems]
      exact ⟨ordered_restoreJson mask item, ordered_restoreItems mask more⟩

theorem ordered_restoreMembers (mask : Mask) :
    (members : List (String × Json)) → Json.OrderedMembers (mask.restoreMembers members)
  | [] => by
      rw [restoreMembers, Json.OrderedMembers]
      trivial
  | (key, value) :: more => by
      rw [restoreMembers, Json.OrderedMembers]
      exact ⟨ordered_restoreJson mask value, ordered_restoreMembers mask more⟩

end

/-- Restoring changes an ordered value exactly when a text or a key of it holds a live token. -/
theorem Fresh.restoreJson_eq_self_iff (fresh : mask.Fresh) {value : Json}
    (ordered : value.Ordered) :
    mask.restoreJson value = value ↔ ∀ text ∈ textsOf value, ¬ mask.HoldsToken text := by
  constructor
  · intro same
    rw [← same]
    exact fresh.not_holdsToken_restoreJson value
  · exact restoreJson_of_not_holdsToken value ordered

theorem Fresh.restoreJson_restoreJson (fresh : mask.Fresh) (value : Json) :
    mask.restoreJson (mask.restoreJson value) = mask.restoreJson value :=
  restoreJson_of_not_holdsToken _ (ordered_restoreJson mask value)
    (fresh.not_holdsToken_restoreJson value)

end Mask

end UiMarkdown
