import UiMarkdown.Proofs.Mask.Settled
import UiMarkdown.Proofs.Yaml.Spread
import UiMarkdown.Source.Payload
import UiMarkdown.Source.Writer

/-!
# Payloads that are written and masked again

A payload is masked text by text, its keys are not masked, and the spans are put
back into the Yaml that is written.  The reader masks this Yaml as one text.  It
finds the same spans exactly when none starts in a key and none starts in one
text and ends in a later one; then the payload comes back as it was.
-/

namespace UiMarkdown

open Template (Piece HasSpan opening closing)

namespace Mask

/-! ## The texts of a value in pieces -/

mutual

/-- The texts and keys of a value in pieces.  A key is one plain piece. -/
def partsOf : Json → List (List Piece)
  | .str s => [Template.pieces s.toList]
  | .arr items => partsOfItems items
  | .obj members => partsOfMembers members
  | _ => []

def partsOfItems : List Json → List (List Piece)
  | [] => []
  | item :: more => partsOf item ++ partsOfItems more

def partsOfMembers : List (String × Json) → List (List Piece)
  | [] => []
  | (key, value) :: more => [.plain key.toList] :: (partsOf value ++ partsOfMembers more)

end

/--
The spans in some texts are apart: no plain piece has one by itself, and where a
plain piece leaves braces open, no later text closes them.
-/
structure SpansApart (parts : List (List Piece)) : Prop where
  plain : ∀ part ∈ parts, ∀ s, .plain s ∈ part → ¬ HasSpan s
  apart : parts.Pairwise fun part later =>
    (∃ s, .plain s ∈ part ∧ opening <:+: s) → ¬ closing <:+: later.flatMap Piece.text

def linedPieces (parts : List (List Piece)) : List Piece :=
  parts.flatMap (.plain ['\n'] :: ·)

theorem linedPieces_cons (part : List Piece) (parts : List (List Piece)) :
    linedPieces (part :: parts) = .plain ['\n'] :: (part ++ linedPieces parts) := by
  rw [linedPieces, List.flatMap_cons, List.cons_append, linedPieces]

theorem linedPieces_append (parts more : List (List Piece)) :
    linedPieces (parts ++ more) = linedPieces parts ++ linedPieces more :=
  List.flatMap_append

theorem flatMap_linedPieces {f : Piece → List Char} (plain : ∀ s, f (.plain s) = s)
    (parts : List (List Piece)) :
    (linedPieces parts).flatMap f = Yaml.lined (parts.map (·.flatMap f)) := by
  induction parts with
  | nil => rfl
  | cons part parts ih =>
      rw [linedPieces_cons, List.map_cons, Yaml.lined_cons, List.flatMap_cons, plain,
        List.flatMap_append, ih]
      rfl

mutual

theorem map_text_partsOf : (value : Json) →
    (partsOf value).map (·.flatMap Piece.text) = textsOf value
  | .str s => by
      rw [partsOf, textsOf, List.map_singleton, Template.flatMap_text_pieces]
  | .arr items => by
      rw [partsOf, textsOf, map_text_partsOfItems items]
  | .obj members => by
      rw [partsOf, textsOf, map_text_partsOfMembers members]
  | .null | .bool _ | .num _ => by
      rw [partsOf, textsOf]
      all_goals simp

theorem map_text_partsOfItems : (items : List Json) →
    (partsOfItems items).map (·.flatMap Piece.text) = textsOfItems items
  | [] => by rw [partsOfItems, textsOfItems, List.map_nil]
  | item :: more => by
      rw [partsOfItems, textsOfItems, List.map_append, map_text_partsOf item,
        map_text_partsOfItems more]

theorem map_text_partsOfMembers : (members : List (String × Json)) →
    (partsOfMembers members).map (·.flatMap Piece.text) = textsOfMembers members
  | [] => by rw [partsOfMembers, textsOfMembers, List.map_nil]
  | (key, value) :: more => by
      rw [partsOfMembers, textsOfMembers, List.map_cons, List.map_append, map_text_partsOf value,
        map_text_partsOfMembers more, List.flatMap_singleton, Piece.text, List.cons_append]

end

mutual

/-- Masking the pieces of a value gives the texts of the masked value. -/
theorem maskPieces_partsOf (stem : List Char) : (value : Json) → (n : Nat) →
    maskPieces stem n (linedPieces (partsOf value)) =
      (Yaml.lined (textsOf (maskJson stem n value).1), (maskJson stem n value).2)
  | .str s, n => by
      rw [partsOf, maskJson, linedPieces_cons, maskPieces_plain, linedPieces]
      simp [textsOf, Yaml.lined, maskText]
  | .arr items, n => by
      rw [partsOf, maskJson, maskPieces_partsOfItems stem items n]
      simp only [textsOf]
  | .obj members, n => by
      rw [partsOf, maskJson, maskPieces_partsOfMembers stem members n]
      simp only [textsOf]
  | .null, n | .bool _, n | .num _, n => by
      rw [partsOf, maskJson, textsOf]
      all_goals simp [linedPieces, maskPieces, Yaml.lined]

theorem maskPieces_partsOfItems (stem : List Char) : (items : List Json) → (n : Nat) →
    maskPieces stem n (linedPieces (partsOfItems items)) =
      (Yaml.lined (textsOfItems (maskItems stem n items).1), (maskItems stem n items).2)
  | [], n => by
      simp [partsOfItems, maskItems, textsOfItems, linedPieces, maskPieces, Yaml.lined]
  | item :: more, n => by
      rw [partsOfItems, linedPieces_append, maskPieces_append, maskPieces_partsOf stem item n,
        maskPieces_partsOfItems stem more, maskItems, textsOfItems, Yaml.lined_append]

theorem maskPieces_partsOfMembers (stem : List Char) : (members : List (String × Json)) →
    (n : Nat) →
    maskPieces stem n (linedPieces (partsOfMembers members)) =
      (Yaml.lined (textsOfMembers (maskMembers stem n members).1), (maskMembers stem n members).2)
  | [], n => by
      simp [partsOfMembers, maskMembers, textsOfMembers, linedPieces, maskPieces, Yaml.lined]
  | (key, value) :: more, n => by
      rw [partsOfMembers, linedPieces_cons, List.singleton_append, maskPieces_plain,
        maskPieces_plain, linedPieces_append, maskPieces_append, maskPieces_partsOf stem value n,
        maskPieces_partsOfMembers stem more, maskMembers, textsOfMembers, Yaml.lined_append,
        Yaml.lined_cons]
      simp only [List.cons_append, List.nil_append, List.append_assoc]

end

/-! ## Spans of texts on lines of their own -/

theorem infix_lined_iff {p : List Char} (nonempty : p ≠ []) (absent : '\n' ∉ p)
    (texts : List (List Char)) :
    p <:+: Yaml.lined texts ++ ['\n'] ↔ ∃ text ∈ texts, p <:+: text := by
  induction texts with
  | nil => simp [Yaml.lined, Text.infix_cons_iff_of_not_mem nonempty absent, nonempty]
  | cons text texts ih =>
      obtain ⟨rest, starts⟩ := Yaml.exists_lined_append_eq texts []
      rw [starts, Text.infix_cons_iff_of_not_mem nonempty absent] at ih
      rw [Yaml.lined_cons, List.cons_append, List.append_assoc, starts,
        Text.infix_cons_iff_of_not_mem nonempty absent, Text.infix_append_cons_iff absent]
      simp only [List.mem_cons, exists_eq_or_imp]
      exact or_congr_right ih

/-- Texts on lines of their own have no span when none has one, nor two of them together. -/
theorem not_hasSpan_lined_iff (texts : List (List Char)) :
    ¬ HasSpan (Yaml.lined texts ++ ['\n']) ↔ (∀ text ∈ texts, ¬ HasSpan text) ∧
      texts.Pairwise fun text later => opening <:+: text → ¬ closing <:+: later := by
  have nothing : ¬ HasSpan [] := Template.cutSpan?_eq_none_iff.1 rfl
  have line (s : List Char) : HasSpan ('\n' :: s) ↔ HasSpan s :=
    Template.hasSpan_cons_iff (by decide) (by decide)
  induction texts with
  | nil => simp [Yaml.lined, line, nothing]
  | cons text texts ih =>
      obtain ⟨rest, starts⟩ := Yaml.exists_lined_append_eq texts []
      have closes := infix_lined_iff (p := closing) (by decide) (by decide) texts
      rw [starts, Text.infix_cons_iff_of_not_mem (by decide) (by decide)] at closes
      rw [starts, line] at ih
      rw [Yaml.lined_cons, List.cons_append, List.append_assoc, starts, line,
        Template.hasSpan_append_cons_iff (by decide) (by decide), closes, not_or, not_or,
        List.forall_mem_cons, List.pairwise_cons]
      constructor
      · rintro ⟨alone, others, across⟩
        obtain ⟨all, pairs⟩ := ih.1 others
        exact ⟨⟨alone, all⟩, fun b mem opens closes => across ⟨opens, b, mem, closes⟩, pairs⟩
      · rintro ⟨⟨alone, all⟩, heads, pairs⟩
        exact ⟨alone, ih.2 ⟨all, pairs⟩, fun ⟨opens, b, mem, closes⟩ => heads b mem opens closes⟩

/-- Pieces whose shadow shows the braces of their plain text, as those of a key or of a text do. -/
structure Tidy (part : List Piece) : Prop where
  spans : HasSpan (part.flatMap Piece.shadow) ↔ ∃ s, .plain s ∈ part ∧ HasSpan s
  opens : opening <:+: part.flatMap Piece.shadow ↔ ∃ s, .plain s ∈ part ∧ opening <:+: s
  closes : closing <:+: part.flatMap Piece.shadow ↔ closing <:+: part.flatMap Piece.text
  once : ∀ piece ∈ part, piece.ClosesOnce

theorem tidy_plain (s : List Char) : Tidy [.plain s] := by
  refine ⟨?_, ?_, ?_, ?_⟩ <;> simp [Piece.shadow, Piece.text, Piece.ClosesOnce]

theorem tidy_pieces (s : List Char) : Tidy (Template.pieces s) := by
  have once : ∀ piece ∈ Template.pieces s, piece.ClosesOnce := fun _ mem =>
    Template.closesOnce_of_mem_pieces mem
  refine ⟨?_, Template.opening_infix_shadow_iff s, ?_, once⟩
  · exact iff_of_false (not_hasSpan_shadow s)
      fun ⟨t, mem, spans⟩ => Template.not_hasSpan_of_mem_pieces mem spans
  · rw [Template.flatMap_text_pieces]
    exact Template.closing_infix_shadow_iff s

mutual

theorem tidy_of_mem_partsOf : (value : Json) → ∀ part ∈ partsOf value, Tidy part
  | .str s => by
      rw [partsOf, List.forall_mem_singleton]
      exact tidy_pieces s.toList
  | .arr items => by
      rw [partsOf]
      exact tidy_of_mem_partsOfItems items
  | .obj members => by
      rw [partsOf]
      exact tidy_of_mem_partsOfMembers members
  | .null | .bool _ | .num _ => by
      rw [partsOf]
      · exact List.forall_mem_nil _
      all_goals simp

theorem tidy_of_mem_partsOfItems : (items : List Json) → ∀ part ∈ partsOfItems items, Tidy part
  | [] => by
      rw [partsOfItems]
      exact List.forall_mem_nil _
  | item :: more => by
      rw [partsOfItems, List.forall_mem_append]
      exact ⟨tidy_of_mem_partsOf item, tidy_of_mem_partsOfItems more⟩

theorem tidy_of_mem_partsOfMembers :
    (members : List (String × Json)) → ∀ part ∈ partsOfMembers members, Tidy part
  | [] => by
      rw [partsOfMembers]
      exact List.forall_mem_nil _
  | (key, value) :: more => by
      rw [partsOfMembers, List.forall_mem_cons, List.forall_mem_append]
      exact ⟨tidy_plain key.toList, tidy_of_mem_partsOf value, tidy_of_mem_partsOfMembers more⟩

end

/-- The spans of texts are apart exactly when no span shows in the shadow of all of them. -/
theorem spansApart_iff {parts : List (List Piece)} (tidy : ∀ part ∈ parts, Tidy part) :
    SpansApart parts ↔
      ¬ HasSpan ((linedPieces parts ++ [Piece.plain ['\n']]).flatMap Piece.shadow) := by
  rw [List.flatMap_append, flatMap_linedPieces (fun _ => rfl), List.flatMap_singleton,
    Piece.shadow, not_hasSpan_lined_iff, List.forall_mem_map, List.pairwise_map]
  have across := List.Pairwise.iff_of_mem (l := parts)
    (R := fun part later => opening <:+: part.flatMap Piece.shadow →
      ¬ closing <:+: later.flatMap Piece.shadow)
    (S := fun part later => (∃ s, .plain s ∈ part ∧ opening <:+: s) →
      ¬ closing <:+: later.flatMap Piece.text)
    fun first second => by rw [(tidy _ first).opens, (tidy _ second).closes]
  rw [across]
  constructor
  · rintro ⟨plain, apart⟩
    refine ⟨fun part mem spans => ?_, apart⟩
    obtain ⟨s, isPlain, spans⟩ := (tidy part mem).spans.1 spans
    exact plain part mem s isPlain spans
  · rintro ⟨alone, apart⟩
    refine ⟨fun part mem s isPlain spans => ?_, apart⟩
    exact alone part mem ((tidy part mem).spans.2 ⟨s, isPlain, spans⟩)

/-! ## The stem -/

/-- The fresh stem is the only one that occurs in no text while all before it do. -/
theorem freshStem_eq {texts : List (List Char)} {growths : Nat}
    (fresh : ∀ text ∈ texts, ¬ stemOf growths <:+: text)
    (least : ∀ j < growths, ∃ text ∈ texts, stemOf j <:+: text) :
    freshStem texts = stemOf growths := by
  obtain ⟨final, stem, fresh', least'⟩ := freshStem_spec texts
  rcases Nat.lt_trichotomy final growths with below | rfl | above
  · obtain ⟨text, mem, occurs⟩ := least final below
    exact absurd occurs (fresh' text mem)
  · exact stem
  · obtain ⟨text, mem, occurs⟩ := least' growths above
    exact absurd occurs (fresh text mem)

/-- A line feed before a text stays before the masked text. -/
theorem maskText_feed (growths n : Nat) (s : List Char) :
    maskText (stemOf growths) n ('\n' :: s) =
      ('\n' :: (maskText (stemOf growths) n s).1, (maskText (stemOf growths) n s).2) := by
  have settled := maskText_eq_maskPieces_iff growths n ['\n'] (Template.pieces s)
    fun _ mem => Template.closesOnce_of_mem_pieces mem
  simp only [Template.flatMap_text_pieces, List.singleton_append,
    Template.hasSpan_cons_iff (by decide : '\n' ∉ opening) (by decide)] at settled
  exact settled.2 (not_hasSpan_shadow s)

end Mask

namespace Payload

/-! ## Payloads -/

def draftMembers (payload : Object) : List (String × Json) :=
  (Mask.maskMembers (Mask.freshStem (Mask.textsOfMembers payload)) 0 payload).1

/-- The text that is written for a payload before the spans are put back, and their mask. -/
def draft (payload : Object) : List Char × Mask :=
  (if payload.isEmpty then [] else Yaml.writeMapping (draftMembers payload),
    (Mask.ofJson (.obj payload)).2)

theorem write_eq_restore (payload : Object) :
    write payload = (draft payload).2.restore (draft payload).1 := by
  rw [write, draft]
  split
  · simp [Mask.restore_eq_restoreTokens]
  · rfl

/-- The spans of a payload: none is in a key, or reaches from one text into a later one. -/
def SpansApart (payload : Object) : Prop :=
  Mask.SpansApart (Mask.partsOfMembers payload)

theorem draft_mask (payload : Object) :
    (draft payload).2 = ⟨Mask.freshStem (Mask.textsOfMembers payload),
      (Mask.maskMembers (Mask.freshStem (Mask.textsOfMembers payload)) 0 payload).2⟩ := by
  rw [draft, Mask.ofJson, Mask.textsOf, Mask.maskJson]

theorem draftMembers_ne_nil {payload : Object} (nonempty : payload ≠ []) :
    draftMembers payload ≠ [] := by
  cases payload with
  | nil => exact absurd rfl nonempty
  | cons member more => exact List.cons_ne_nil _ _

theorem feed_not_mem_stemOf (growths : Nat) : '\n' ∉ Mask.stemOf growths :=
  fun mem => absurd ((Mask.Steady.stem growths).kept _ mem) (by decide)

theorem stem_infix_lined_iff (growths : Nat) (texts : List (List Char)) :
    Mask.stemOf growths <:+: Yaml.lined texts ++ ['\n'] ↔
      ∃ text ∈ texts, Mask.stemOf growths <:+: text :=
  Mask.infix_lined_iff (Mask.stemOf_ne_nil growths) (feed_not_mem_stemOf growths) texts

/--
A written payload, behind a line feed, is put together from pieces that are
masked as they were when it was written.
-/
theorem exists_pieces_of_write {payload : Object} (nonempty : payload ≠ []) {growths : Nat}
    (stem : Mask.freshStem (Mask.textsOfMembers payload) = Mask.stemOf growths)
    (fresh : ∀ text ∈ Mask.textsOfMembers payload, ¬ Mask.stemOf growths <:+: text) :
    ∃ qs, Mask.maskPieces (Mask.stemOf growths) 0 qs =
        ('\n' :: (draft payload).1, (draft payload).2.spans) ∧
      (∀ piece ∈ qs, piece.ClosesOnce) ∧
      '\n' :: write payload = qs.flatMap Piece.text ∧
      (SpansApart payload ↔ ¬ HasSpan (qs.flatMap Piece.shadow)) ∧
      Mask.Spread (Yaml.lined (Mask.textsOfMembers payload) ++ ['\n']) (qs.flatMap Piece.text) := by
  have tidy := Mask.tidy_of_mem_partsOfMembers payload
  have text : (draft payload).1 = Yaml.writeMapping (draftMembers payload) := by
    rw [draft, if_neg (by simpa using nonempty)]
  have mask := draft_mask payload
  rw [stem] at mask
  -- the pieces of all texts, each behind a line feed, and what the writer makes of them
  let full := Mask.linedPieces (Mask.partsOfMembers payload) ++ [Piece.plain ['\n']]
  have masked : Mask.maskPieces (Mask.stemOf growths) 0 full =
      (Yaml.lined (Mask.textsOfMembers (draftMembers payload)) ++ ['\n'],
        (draft payload).2.spans) := by
    rw [Mask.maskPieces_append, Mask.maskPieces_partsOfMembers, mask, draftMembers, stem]
    simp [Mask.maskPieces]
  have written := Yaml.spread_writeMapping (draftMembers_ne_nil nonempty)
  obtain ⟨qs, maskedQs, spans, spreads⟩ := Mask.exists_pieces_of_spread growths 0 [] _ full
    (by rw [List.nil_append, masked]; exact written)
  rw [masked] at maskedQs
  have texts : Mask.Spread (Yaml.lined (Mask.textsOfMembers payload) ++ ['\n'])
      (qs.flatMap Piece.text) := by
    have texts := spreads Piece.text fun _ => rfl
    rw [List.nil_append, List.flatMap_append, Mask.flatMap_linedPieces fun _ => rfl,
      Mask.map_text_partsOfMembers] at texts
    exact texts
  refine ⟨qs, text ▸ maskedQs, ?_, ?_, ?_, texts⟩
  · intro piece mem
    cases piece with
    | plain s => trivial
    | span body =>
        rcases List.mem_append.1 (spans body mem) with inside | feed
        · obtain ⟨part, isPart, inside⟩ := List.mem_flatMap.1 inside
          rw [List.mem_cons, or_iff_right (by simp)] at inside
          exact (tidy part isPart).once _ inside
        · cases List.mem_singleton.1 feed
  · have absent : ¬ Mask.stemOf growths <:+: qs.flatMap Piece.text := by
      rw [← texts.infix_iff (.stem growths), stem_infix_lined_iff]
      rintro ⟨text, mem, occurs⟩
      exact fresh text mem occurs
    have stem : (draft payload).2.stem = Mask.stemOf growths := by rw [mask]
    have restored := Mask.restoreTokens_maskPieces stem 0 [] qs (by rwa [List.nil_append])
      (by rw [maskedQs, Mask.Holds]; exact List.prefix_rfl)
    rw [List.nil_append, List.nil_append, maskedQs,
      Mask.restoreTokens_cons_of_readToken?] at restored
    · rw [write_eq_restore, Mask.restore_eq_restoreTokens, text]
      exact restored
    · apply Mask.readToken?_eq_none_of_absent
      rw [mask, Mask.stemOf_eq_cons, List.cons_prefix_cons]
      exact fun starts => absurd starts.1 (by decide)
  · have shadows := (spreads Piece.shadow fun _ => rfl).hasSpan_iff
    rw [List.nil_append] at shadows
    rw [SpansApart, Mask.spansApart_iff tidy, ← shadows]

/-- Masking a written payload gives the masked text that was written, and its mask. -/
theorem ofText_write_iff (payload : Object) :
    Mask.ofText (write payload) = draft payload ↔ SpansApart payload := by
  rcases eq_or_ne payload [] with rfl | nonempty
  · exact iff_of_true (by decide +kernel) ⟨List.forall_mem_nil _, List.Pairwise.nil⟩
  obtain ⟨growths, stem, fresh, least⟩ := Mask.freshStem_spec (Mask.textsOfMembers payload)
  obtain ⟨qs, masked, once, whole, apart, texts⟩ := exists_pieces_of_write nonempty stem fresh
  have occurs (j : Nat) : Mask.stemOf j <:+: write payload ↔
      ∃ text ∈ Mask.textsOfMembers payload, Mask.stemOf j <:+: text := by
    rw [← stem_infix_lined_iff, texts.infix_iff (.stem j), ← whole,
      Text.infix_cons_iff_of_not_mem (Mask.stemOf_ne_nil j) (feed_not_mem_stemOf j)]
  have again : Mask.freshStem [write payload] = Mask.stemOf growths := by
    refine Mask.freshStem_eq (List.forall_mem_singleton.2 ?_) fun j below => ?_
    · rw [occurs]
      rintro ⟨text, mem, inside⟩
      exact fresh text mem inside
    · exact ⟨_, List.mem_singleton_self _, (occurs j).2 (least j below)⟩
  have mask : draft payload =
      ((draft payload).1, ⟨Mask.stemOf growths, (draft payload).2.spans⟩) := by
    rw [← stem]
    exact Prod.ext rfl (draft_mask payload)
  have settled := Mask.maskText_eq_maskPieces_iff growths 0 [] qs once
  rw [List.nil_append, List.nil_append, List.nil_append, ← whole, masked,
    Mask.maskText_feed] at settled
  rw [apart, ← settled, Mask.ofText, again, mask]
  simp only [Prod.mk.injEq, List.cons.injEq, Mask.mk.injEq, true_and]

/-- A mapping has a colon after its first key. -/
theorem colon_mem_writeMapping {members : List (String × Json)} (nonempty : members ≠ []) :
    ':' ∈ Yaml.writeMapping members := by
  have endLine {s : List Char} (mem : ':' ∈ s) : ':' ∈ Yaml.endLine s := by
    obtain ⟨ending, whole⟩ := Yaml.exists_endLine_eq s
    rw [whole]
    exact List.mem_append_left ending mem
  have key (key value : List Char) : ':' ∈ Yaml.writeKey 0 key ++ value := by
    obtain ⟨w, written, -⟩ := Yaml.exists_writeKey_eq 0 key
    rw [written]
    simp
  rw [Yaml.writeMapping, if_neg (by simpa using nonempty)]
  apply endLine
  rcases members with _ | ⟨⟨first, value⟩, _ | ⟨next, more⟩⟩
  · exact absurd rfl nonempty
  · exact key _ _
  · rw [Yaml.writeMembers_cons_cons]
    exact List.mem_append_left _ (List.mem_append_left _ (endLine (key _ _)))

/-- A payload comes back from the masked text that was written for it. -/
theorem restoreObject_draft {payload : Object} (ordered : (Json.obj payload).Ordered)
    (read : Yaml.ofText? (Yaml.writeMapping (draftMembers payload)) =
      some (.obj (draftMembers payload))) :
    (draft payload).2.restoreObject (ofBody (draft payload).1) = payload := by
  rcases eq_or_ne payload [] with rfl | nonempty
  · rfl
  have text : (draft payload).1 = Yaml.writeMapping (draftMembers payload) := by
    rw [draft, if_neg (by simpa using nonempty)]
  have visible : Text.allBlank (Yaml.writeMapping (draftMembers payload)) = false := by
    rw [Text.allBlank, List.all_eq_false]
    exact ⟨':', colon_mem_writeMapping (draftMembers_ne_nil nonempty), by decide⟩
  obtain ⟨growths, stem, fresh, -⟩ := Mask.freshStem_spec (Mask.textsOfMembers payload)
  have mask := draft_mask payload
  rw [stem] at mask
  rw [Json.Ordered] at ordered
  rw [text, ofBody, visible, if_neg (by decide), read]
  dsimp only
  rw [Mask.restoreObject, draftMembers, stem,
    Mask.restoreMembers_maskMembers (by rw [mask]) payload 0 ordered.2 fresh
      (by rw [mask, Mask.Holds]; exact List.prefix_rfl),
    Object.ofList_of_ascending ordered.1]

/--
Masking a written payload finds the very spans that were masked when it was
written, exactly when these are apart.  Then a payload that Yaml reads back with
the tokens in it comes back whole.
-/
theorem reread_written (payload : Object) :
    (Mask.ofText (write payload) = draft payload ↔ SpansApart payload) ∧
    (SpansApart payload → (Json.obj payload).Ordered →
      Yaml.ofText? (Yaml.writeMapping (draftMembers payload)) =
        some (.obj (draftMembers payload)) →
      (Mask.ofText (write payload)).2.restoreObject (ofBody (Mask.ofText (write payload)).1) =
        payload) := by
  refine ⟨ofText_write_iff payload, fun apart ordered read => ?_⟩
  rw [(ofText_write_iff payload).2 apart]
  exact restoreObject_draft ordered read

/-- Expressions with quotes and braces without partners, in texts at any depth. -/
theorem reread_written_with_quotes :
    let payload : Object := [("a", .str "x: \x7b\x7b y | default: 'q' \x7d\x7d"),
      ("b", .arr [.str "\x7b \x7b\x7b 'q' \x7d\x7d\x7d", .obj [("\x7d\x7d", .str "\x7b\x7b")]])]
    SpansApart payload ∧ (Json.obj payload).Ordered ∧
      (Mask.ofText (write payload)).2.restoreObject (ofBody (Mask.ofText (write payload)).1) =
        payload := by
  intro payload
  have apart : SpansApart payload := by
    rw [SpansApart, Mask.spansApart_iff (Mask.tidy_of_mem_partsOfMembers payload),
      ← Template.cutSpan?_eq_none_iff]
    decide +kernel
  have ordered : (Json.obj payload).Ordered := by
    simp only [payload, Json.Ordered, Json.OrderedMembers, Json.OrderedItems]
    decide
  exact ⟨apart, ordered, (reread_written payload).2 apart ordered (by decide +kernel)⟩

/-- Braces that open in one text and close in the next one are taken for a span. -/
theorem not_reread_written_across_texts :
    let payload : Object := [("a", .str "\x7b\x7b"), ("b", .str "\x7d\x7d")]
    (Json.obj payload).Ordered ∧
      Yaml.ofText? (Yaml.writeMapping (draftMembers payload)) =
        some (.obj (draftMembers payload)) ∧
      (Mask.ofText (write payload)).2.restoreObject (ofBody (Mask.ofText (write payload)).1) ≠
        payload := by
  intro payload
  have ordered : (Json.obj payload).Ordered := by
    simp only [payload, Json.Ordered, Json.OrderedMembers]
    decide
  exact ⟨ordered, by decide +kernel, by decide +kernel⟩

end Payload

end UiMarkdown
