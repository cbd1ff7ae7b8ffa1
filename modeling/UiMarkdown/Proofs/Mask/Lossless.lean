import UiMarkdown.Proofs.Json.Ordered
import UiMarkdown.Proofs.Mask.Token
import UiMarkdown.Proofs.Template.Span

/-!
# Masking loses nothing

A masked text is cut at its tokens into texts that hold neither the stem nor a
whole span.  So no token arises by accident, no span is left over, and a masked
text may be restored in pieces as long as no cut falls inside a token.
-/

namespace UiMarkdown

namespace Mask

/-- The spans stand in the list of a mask from a number on. -/
def Holds (mask : Mask) (n : Nat) (spans : List (List Char)) : Prop :=
  spans <+: mask.spans.drop n

namespace Holds

theorem nil (mask : Mask) (n : Nat) : mask.Holds n [] :=
  List.nil_prefix

theorem cons_iff {mask : Mask} {n : Nat} {span : List Char} {spans : List (List Char)} :
    mask.Holds n (span :: spans) ↔ mask.spans[n]? = some span ∧ mask.Holds (n + 1) spans := by
  rw [Holds, Holds]
  cases left : mask.spans.drop n with
  | nil =>
      have short := List.drop_eq_nil_iff.1 left
      simp [List.getElem?_eq_none short]
  | cons first rest =>
      have found : mask.spans[n]? = some first := by
        rw [← List.head?_drop, left, List.head?_cons]
      have next : mask.spans.drop (n + 1) = rest := by
        rw [← List.tail_drop, left, List.tail_cons]
      rw [List.cons_prefix_cons, found, next, Option.some_inj, eq_comm]

theorem append_iff {mask : Mask} {n : Nat} {spans later : List (List Char)} :
    mask.Holds n (spans ++ later) ↔ mask.Holds n spans ∧ mask.Holds (n + spans.length) later := by
  induction spans generalizing n with
  | nil => simp [Holds.nil]
  | cons span spans ih =>
      rw [List.cons_append, cons_iff, cons_iff, ih, and_assoc, List.length_cons,
        Nat.add_assoc, Nat.add_comm 1]

end Holds

/-! ## Masked pieces -/

theorem maskPieces_plain (stem : List Char) (n : Nat) (s : List Char) (ps : List Template.Piece) :
    maskPieces stem n (.plain s :: ps) =
      (s ++ (maskPieces stem n ps).1, (maskPieces stem n ps).2) :=
  rfl

theorem maskPieces_span (stem : List Char) (n : Nat) (body : List Char) (ps : List Template.Piece) :
    maskPieces stem n (.span body :: ps) =
      (token stem n ++ (maskPieces stem (n + 1) ps).1,
        (Template.Piece.span body).text :: (maskPieces stem (n + 1) ps).2) :=
  rfl

/-- No stem starts in a text without it that a token follows. -/
theorem not_startsIn_before_token {growths n : Nat} {before rest : List Char}
    (absent : ¬ stemOf growths <:+: before) :
    ¬ Text.StartsIn (stemOf growths) before (token (stemOf growths) n ++ rest) := by
  obtain ⟨tail, shape, -⟩ := token_stemOf_eq_cons growths n
  rw [stemOf_eq_cons] at absent
  rw [shape, stemOf_eq_cons]
  exact Text.StartsIn.not_of_absent absent (head_not_mem_stemTail growths)

/-- Restoring masked pieces gives their texts. -/
theorem restoreTokens_maskPieces {mask : Mask} {growths : Nat} (stem : mask.stem = stemOf growths)
    (n : Nat) (x : List Char) (ps : List Template.Piece)
    (fresh : ¬ stemOf growths <:+: x ++ ps.flatMap Template.Piece.text)
    (held : mask.Holds n (maskPieces (stemOf growths) n ps).2) :
    mask.restoreTokens (x ++ (maskPieces (stemOf growths) n ps).1) =
      x ++ ps.flatMap Template.Piece.text := by
  induction ps generalizing n x with
  | nil =>
      rw [List.flatMap_nil, List.append_nil] at fresh ⊢
      rw [maskPieces, List.append_nil]
      exact restoreTokens_of_absent (by rwa [stem])
  | cons piece ps ih =>
      cases piece with
      | plain s =>
          rw [maskPieces_plain] at held ⊢
          rw [List.flatMap_cons, Template.Piece.text, ← List.append_assoc] at fresh ⊢
          rw [← List.append_assoc]
          exact ih n (x ++ s) fresh held
      | span body =>
          rw [maskPieces_span] at held ⊢
          obtain ⟨found, later⟩ := Holds.cons_iff.1 held
          have early : ¬ stemOf growths <:+: x := fun occurs =>
            fresh (occurs.trans (List.prefix_append _ _).isInfix)
          have late : ¬ stemOf growths <:+: [] ++ ps.flatMap Template.Piece.text := fun occurs =>
            fresh (occurs.trans ⟨x ++ (Template.Piece.span body).text, [], by simp⟩)
          have rest := ih (n + 1) [] late later
          rw [List.nil_append, List.nil_append] at rest
          rw [restoreTokens_append_of_not_startsIn (stem ▸ not_startsIn_before_token early),
            ← stem, restoreTokens_token found, stem, rest, List.flatMap_cons]

/-! ## Masked texts -/

theorem maskText_of_cutSpan?_eq_none {s : List Char} (stem : List Char) (n : Nat)
    (spanless : Template.cutSpan? s = none) : maskText stem n s = (s, []) := by
  rw [maskText, Template.pieces]
  split
  · cases s <;> simp [Template.plainPiece, maskPieces]
  · rename_i cut
    rw [spanless] at cut
    cases cut

theorem maskText_of_cutSpan? {s before body after : List Char} (stem : List Char) (n : Nat)
    (cut : Template.cutSpan? s = some (before, body, after)) :
    maskText stem n s =
      (before ++ (token stem n ++ (maskText stem (n + 1) after).1),
        (Template.Piece.span body).text :: (maskText stem (n + 1) after).2) := by
  rw [maskText, Template.pieces]
  split
  · rename_i spanless
    rw [cut] at spanless
    cases spanless
  · rename_i before' body' after' cut'
    rw [cut] at cut'
    cases cut'
    cases before <;> simp [Template.plainPiece, maskPieces, maskText]

/-- The parts of a text around its first span lack what the text lacks. -/
theorem absent_of_cutSpan? {pattern s before body after : List Char}
    (absent : ¬ pattern <:+: s) (cut : Template.cutSpan? s = some (before, body, after)) :
    ¬ pattern <:+: before ∧ ¬ pattern <:+: after := by
  have whole := Template.eq_append_of_cutSpan? cut
  constructor
  · intro occurs
    apply absent
    rw [whole, List.append_assoc]
    exact occurs.trans (List.prefix_append _ _).isInfix
  · intro occurs
    apply absent
    rw [whole]
    exact occurs.trans (List.suffix_append _ _).isInfix

/-- Restoring a masked text gives the text. -/
theorem restoreTokens_maskText {mask : Mask} {growths : Nat} (stem : mask.stem = stemOf growths)
    (n : Nat) (s : List Char) (fresh : ¬ stemOf growths <:+: s)
    (held : mask.Holds n (maskText (stemOf growths) n s).2) :
    mask.restoreTokens (maskText (stemOf growths) n s).1 = s := by
  have restored := restoreTokens_maskPieces stem n [] (Template.pieces s)
  rw [Template.flatMap_text_pieces, List.nil_append, List.nil_append] at restored
  exact restored fresh held

/-- A masked text is restored. -/
theorem restore_ofText (x : List Char) : (ofText x).2.restore (ofText x).1 = x := by
  obtain ⟨growths, stem, fresh, -⟩ := freshStem_spec [x]
  rw [List.forall_mem_singleton] at fresh
  have masked : (ofText x).1 = (maskText (stemOf growths) 0 x).1 := by rw [ofText, stem]
  have spans : (ofText x).2.spans = (maskText (stemOf growths) 0 x).2 := by rw [ofText, stem]
  rw [restore_eq_restoreTokens, masked]
  exact restoreTokens_maskText stem 0 x fresh (by rw [Holds, spans]; exact List.prefix_rfl)

/-- A masked text has no span. -/
theorem cutSpan?_maskText (growths n : Nat) (s : List Char) :
    Template.cutSpan? (maskText (stemOf growths) n s).1 = none := by
  induction s using Template.pieces.induct generalizing n with
  | case1 s spanless => rwa [maskText_of_cutSpan?_eq_none _ _ spanless]
  | case2 s before body after cut ih =>
      rw [maskText_of_cutSpan? _ _ cut]
      obtain ⟨tail, shape, -⟩ := token_stemOf_eq_cons growths n
      have inside : ¬ Text.StartsIn Template.opening (token (stemOf growths) n)
          (maskText (stemOf growths) (n + 1) after).1 := by
        apply Text.StartsIn.not_of_head_not_mem
        intro mem
        exact absurd (isAlphanum_of_mem_token mem) (by decide)
      have behind := Template.cutSpan?_append_eq_none inside (ih (n + 1))
      apply Template.cutSpan?_append_eq_none _ behind
      rw [shape]
      exact Text.StartsIn.not_of_absent (Template.not_infix_of_cutSpan? cut) (by decide)

/-- Where a stem stands in a masked text, there stands a token. -/
theorem exists_token_of_stem {growths : Nat} (n : Nat) (s : List Char)
    (fresh : ¬ stemOf growths <:+: s) {u v : List Char}
    (split : (maskText (stemOf growths) n s).1 = u ++ v) (starts : stemOf growths <+: v) :
    ∃ k, n ≤ k ∧ k < n + (maskText (stemOf growths) n s).2.length ∧
      token (stemOf growths) k <+: v := by
  induction s using Template.pieces.induct generalizing n u with
  | case1 s spanless =>
      rw [maskText_of_cutSpan?_eq_none _ _ spanless] at split
      subst split
      exact absurd (starts.isInfix.trans (List.suffix_append u v).isInfix) fresh
  | case2 s before body after cut ih =>
      rw [maskText_of_cutSpan? _ _ cut] at split ⊢
      obtain ⟨early, late⟩ := absent_of_cutSpan? fresh cut
      obtain ⟨w, -, rest⟩ :=
        Text.exists_of_not_startsIn (not_startsIn_before_token early) split starts
      obtain ⟨tail, shape, alone⟩ := token_stemOf_eq_cons growths n
      cases w with
      | nil =>
          refine ⟨n, Nat.le_refl n, by simp, ?_⟩
          rw [← List.nil_append v, ← rest]
          exact List.prefix_append _ _
      | cons c w =>
          rw [shape, List.cons_append] at rest
          have crossing : ¬ Text.StartsIn (stemOf growths) tail
              (maskText (stemOf growths) (n + 1) after).1 := by
            rw [stemOf_eq_cons]
            exact Text.StartsIn.not_of_head_not_mem alone
          obtain ⟨w', -, inner⟩ :=
            Text.exists_of_not_startsIn crossing (List.cons.inj rest).2 starts
          obtain ⟨k, from_next, below, found⟩ := ih (n + 1) late inner
          rw [List.length_cons]
          exact ⟨k, by omega, by omega, found⟩

/-! ## Cut texts -/

/--
The place between two adjoining texts lies inside the token of a span: some of
its characters stand right before the place, and the others right after it.
-/
def CutsToken (mask : Mask) (a b : List Char) : Prop :=
  ∃ n < mask.spans.length, ∃ i < (token mask.stem n).length,
    0 < i ∧ (token mask.stem n).take i <:+ a ∧ (token mask.stem n).drop i <+: b

instance (mask : Mask) (a b : List Char) : Decidable (mask.CutsToken a b) :=
  inferInstanceAs (Decidable (∃ n < mask.spans.length, ∃ i < (token mask.stem n).length,
    0 < i ∧ (token mask.stem n).take i <:+ a ∧ (token mask.stem n).drop i <+: b))

/-- No place between two of the parts of a text lies inside the token of a span. -/
def Intact (mask : Mask) (parts : List (List Char)) : Prop :=
  ∀ i < parts.length, ¬ mask.CutsToken (parts.take i).flatten (parts.drop i).flatten

instance (mask : Mask) (parts : List (List Char)) : Decidable (mask.Intact parts) :=
  inferInstanceAs (Decidable (∀ i < parts.length, ¬ mask.CutsToken _ _))

/-- A place inside a token stays one when more text comes before it. -/
theorem CutsToken.append_left {mask : Mask} {a b : List Char} (more : List Char)
    (cuts : mask.CutsToken a b) : mask.CutsToken (more ++ a) b := by
  obtain ⟨n, below, i, inside, positive, left, right⟩ := cuts
  exact ⟨n, below, i, inside, positive, left.trans (List.suffix_append more a), right⟩

theorem Intact.tail {mask : Mask} {part : List Char} {parts : List (List Char)}
    (intact : mask.Intact (part :: parts)) : mask.Intact parts := by
  intro i below cuts
  apply intact (i + 1) (Nat.succ_lt_succ below)
  rw [List.take_succ_cons, List.drop_succ_cons, List.flatten_cons]
  exact cuts.append_left part

/-- The first cut of a text does not fall inside a token. -/
theorem Intact.not_cutsToken {mask : Mask} {part : List Char} {parts : List (List Char)}
    (intact : mask.Intact (part :: parts)) : ¬ mask.CutsToken part parts.flatten := by
  intro cuts
  cases parts with
  | nil =>
      obtain ⟨n, -, i, inside, -, -, right⟩ := cuts
      rw [List.flatten_nil, List.prefix_nil, List.drop_eq_nil_iff] at right
      omega
  | cons next parts =>
      apply intact 1 (by simp)
      simpa using cuts

/--
Parts that leave every token whole are restored one by one, in a text where
every stem begins the token of a span.
-/
theorem flatMap_restore {mask : Mask} (parts : List (List Char))
    (tokens : ∀ u v, parts.flatten = u ++ v → mask.stem <+: v →
      ∃ n < mask.spans.length, token mask.stem n <+: v)
    (intact : mask.Intact parts) :
    parts.flatMap mask.restore = mask.restoreTokens parts.flatten := by
  induction parts with
  | nil => simp
  | cons part parts ih =>
      have inner := ih (fun u v split => tokens (part ++ u) v (by simp [split])) intact.tail
      rw [List.flatMap_cons, restore_eq_restoreTokens, inner, List.flatten_cons,
        restoreTokens_append]
      rintro u v digits rest rfl nonempty read
      by_contra short
      have starts : mask.stem <+: v ++ parts.flatten := by
        rw [eq_append_of_readToken? read, List.append_assoc]
        exact List.prefix_append _ _
      obtain ⟨n, below, after, whole⟩ := tokens u (v ++ parts.flatten) (by simp) starts
      rw [← whole, readToken?_token] at read
      obtain ⟨rfl, rfl⟩ := Prod.mk.inj (Option.some.inj read)
      apply intact.not_cutsToken
      -- the token holds all of `v` and at least one character after it
      have sizes := congrArg List.length whole
      simp only [List.length_append] at sizes
      have left : (token mask.stem n).take v.length = v := by
        have start := congrArg (List.take v.length) whole
        rwa [List.take_append_of_le_length (by omega), List.take_left] at start
      refine ⟨n, below, v.length, by omega, List.length_pos_of_ne_nil nonempty, ?_, ?_⟩
      · rw [left]
        exact List.suffix_append u v
      · rw [← List.take_append_drop v.length (token mask.stem n), left, List.append_assoc,
          List.append_right_inj] at whole
        exact ⟨after, whole⟩

/-! ## Masked values -/

mutual

/-- Masking leaves a value without expressions as it is. -/
theorem maskJson_of_spanless (stem : List Char) (n : Nat) : (value : Json) →
    (∀ text ∈ textsOf value, ¬ Template.HasSpan text) → maskJson stem n value = (value, [])
  | .null, _ => rfl
  | .bool _, _ => rfl
  | .num _, _ => rfl
  | .str s, spanless => by
      have text := spanless s.toList (List.mem_singleton_self _)
      rw [maskJson, maskText_of_cutSpan?_eq_none stem n (Template.cutSpan?_eq_none_iff.2 text)]
      dsimp only
      rw [String.ofList_toList]
  | .arr items, spanless => by
      rw [maskJson, maskItems_of_spanless stem n items spanless]
  | .obj members, spanless => by
      rw [maskJson, maskMembers_of_spanless stem n members spanless]

theorem maskItems_of_spanless (stem : List Char) (n : Nat) : (items : List Json) →
    (∀ text ∈ textsOfItems items, ¬ Template.HasSpan text) → maskItems stem n items = (items, [])
  | [], _ => rfl
  | item :: more, spanless => by
      rw [textsOfItems, List.forall_mem_append] at spanless
      rw [maskItems, maskJson_of_spanless stem n item spanless.1]
      dsimp only
      rw [List.length_nil, Nat.add_zero, maskItems_of_spanless stem n more spanless.2]
      rfl

theorem maskMembers_of_spanless (stem : List Char) (n : Nat) : (members : List (String × Json)) →
    (∀ text ∈ textsOfMembers members, ¬ Template.HasSpan text) →
    maskMembers stem n members = (members, [])
  | [], _ => rfl
  | (key, value) :: more, spanless => by
      rw [textsOfMembers, List.cons_append, List.forall_mem_cons, List.forall_mem_append]
        at spanless
      rw [maskMembers, maskJson_of_spanless stem n value spanless.2.1]
      dsimp only
      rw [List.length_nil, Nat.add_zero, maskMembers_of_spanless stem n more spanless.2.2]
      rfl

end

mutual

/-- Restoring a masked value gives the value. -/
theorem restoreJson_maskJson {mask : Mask} {growths : Nat} (stem : mask.stem = stemOf growths) :
    (value : Json) → (n : Nat) → value.Ordered →
      (∀ text ∈ textsOf value, ¬ stemOf growths <:+: text) →
      mask.Holds n (maskJson (stemOf growths) n value).2 →
      mask.restoreJson (maskJson (stemOf growths) n value).1 = value
  | .str s, n, _, fresh, held => by
      rw [textsOf] at fresh
      rw [maskJson] at held ⊢
      rw [restoreJson, restoreString, String.toList_ofList, restore_eq_restoreTokens,
        restoreTokens_maskText stem n _ (fresh _ List.mem_cons_self) held, String.ofList_toList]
  | .arr items, n, ordered, fresh, held => by
      rw [textsOf] at fresh
      rw [Json.Ordered] at ordered
      rw [maskJson] at held ⊢
      rw [restoreJson, restoreItems_maskItems stem items n ordered fresh held]
  | .obj members, n, ordered, fresh, held => by
      rw [textsOf] at fresh
      rw [Json.Ordered] at ordered
      rw [maskJson] at held ⊢
      rw [restoreJson, restoreMembers_maskMembers stem members n ordered.2 fresh held,
        Object.ofList_of_ascending ordered.1]
  | .null, n, _, _, _ => by simp only [maskJson, restoreJson]
  | .bool _, n, _, _, _ => by simp only [maskJson, restoreJson]
  | .num _, n, _, _, _ => by simp only [maskJson, restoreJson]

theorem restoreItems_maskItems {mask : Mask} {growths : Nat} (stem : mask.stem = stemOf growths) :
    (items : List Json) → (n : Nat) → Json.OrderedItems items →
      (∀ text ∈ textsOfItems items, ¬ stemOf growths <:+: text) →
      mask.Holds n (maskItems (stemOf growths) n items).2 →
      mask.restoreItems (maskItems (stemOf growths) n items).1 = items
  | [], _, _, _, _ => by simp only [maskItems, restoreItems]
  | item :: more, n, ordered, fresh, held => by
      rw [Json.OrderedItems] at ordered
      rw [textsOfItems, List.forall_mem_append] at fresh
      rw [maskItems] at held ⊢
      obtain ⟨early, late⟩ := Holds.append_iff.1 held
      rw [restoreItems, restoreJson_maskJson stem item n ordered.1 fresh.1 early,
        restoreItems_maskItems stem more _ ordered.2 fresh.2 late]

theorem restoreMembers_maskMembers {mask : Mask} {growths : Nat}
    (stem : mask.stem = stemOf growths) :
    (members : List (String × Json)) → (n : Nat) → Json.OrderedMembers members →
      (∀ text ∈ textsOfMembers members, ¬ stemOf growths <:+: text) →
      mask.Holds n (maskMembers (stemOf growths) n members).2 →
      mask.restoreMembers (maskMembers (stemOf growths) n members).1 = members
  | [], _, _, _, _ => by simp only [maskMembers, restoreMembers]
  | (key, value) :: more, n, ordered, fresh, held => by
      rw [Json.OrderedMembers] at ordered
      rw [textsOfMembers, List.forall_mem_append, List.forall_mem_cons] at fresh
      rw [maskMembers] at held ⊢
      obtain ⟨early, late⟩ := Holds.append_iff.1 held
      rw [restoreMembers, restoreString, restore_of_absent (by rw [stem]; exact fresh.1.1),
        String.ofList_toList, restoreJson_maskJson stem value n ordered.1 fresh.1.2 early,
        restoreMembers_maskMembers stem more _ ordered.2 fresh.2 late]

end

/--
Masking is lossless.  The stem is the first of its sequence that the text does
not hold, the masked text has no span, and its parts, restored one by one, are
the text again, however it is cut outside of the tokens.  A value comes back
whole, its keys included.
-/
theorem masking_lossless :
    (∀ x : List Char,
      (∃ growths, (ofText x).2.stem = stemOf growths ∧ ¬ stemOf growths <:+: x ∧
        ∀ j < growths, stemOf j <:+: x) ∧
      ¬ Template.HasSpan (ofText x).1 ∧
      ∀ parts : List (List Char), parts.flatten = (ofText x).1 → (ofText x).2.Intact parts →
        parts.flatMap (ofText x).2.restore = x) ∧
    ∀ value : Json, value.Ordered → (ofJson value).2.restoreJson (ofJson value).1 = value := by
  constructor
  · intro x
    obtain ⟨growths, stem, fresh, least⟩ := freshStem_spec [x]
    rw [List.forall_mem_singleton] at fresh
    have masked : (ofText x).1 = (maskText (stemOf growths) 0 x).1 := by rw [ofText, stem]
    have spans : (ofText x).2.spans = (maskText (stemOf growths) 0 x).2 := by rw [ofText, stem]
    refine ⟨⟨growths, stem, fresh, fun j below => ?_⟩, ?_, ?_⟩
    · obtain ⟨text, mem, occurs⟩ := least j below
      rwa [List.mem_singleton.1 mem] at occurs
    · rw [masked, ← Template.cutSpan?_eq_none_iff]
      exact cutSpan?_maskText growths 0 x
    · intro parts whole intact
      rw [flatMap_restore parts _ intact, whole, masked]
      · exact restoreTokens_maskText stem 0 x fresh (by rw [Holds, spans]; exact List.prefix_rfl)
      · intro u v split starts
        rw [whole, masked] at split
        obtain ⟨k, -, below, found⟩ := exists_token_of_stem 0 x fresh split (stem ▸ starts)
        rw [Nat.zero_add, ← spans] at below
        exact ⟨k, below, by rwa [show (ofText x).2.stem = stemOf growths from stem]⟩
  · intro value ordered
    obtain ⟨growths, stem, fresh, -⟩ := freshStem_spec (textsOf value)
    have masked : (ofJson value).1 = (maskJson (stemOf growths) 0 value).1 := by rw [ofJson, stem]
    have spans : (ofJson value).2.spans = (maskJson (stemOf growths) 0 value).2 := by
      rw [ofJson, stem]
    rw [masked]
    exact restoreJson_maskJson stem value 0 ordered fresh
      (by rw [Holds, spans]; exact List.prefix_rfl)

/-- A text that holds the shortest stem, cut on both sides of its token, and a value with a span. -/
theorem masking_lossless_beside_token :
    let x := "HNTPL \x7b\x7ba\x7d\x7db".toList
    let parts := ["HNTPL ".toList, "HNTPLX0Q".toList, "b".toList]
    let value := Json.obj [("a", .arr [.str "\x7b\x7ba\x7d\x7d \x7b\x7bb\x7d\x7d"]),
      ("\x7b\x7bk\x7d\x7d", .str "HNTPL0Q")]
    parts.flatten = (ofText x).1 ∧ (ofText x).2.Intact parts ∧
      parts.flatMap (ofText x).2.restore = x ∧
      value.Ordered ∧ (ofJson value).2.restoreJson (ofJson value).1 = value := by
  intro x parts value
  have whole : parts.flatten = (ofText x).1 := by decide +kernel
  have intact : (ofText x).2.Intact parts := by decide +kernel
  have ordered : value.Ordered := by
    simp only [value, Json.Ordered, Json.OrderedMembers, Json.OrderedItems]
    decide
  exact ⟨whole, intact, (masking_lossless.1 x).2.2 parts whole intact, ordered,
    masking_lossless.2 value ordered⟩

end Mask

end UiMarkdown
