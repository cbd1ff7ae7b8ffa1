import UiMarkdown.Proofs.Document.Shorthand

/-!
# Texts without images

An image that is found at the start of a text is found there as well when more text
follows, so what is cut off a text has no image that the text did not have.  The texts
that remain between the images of a text have none, and no piece of a text with
expressions has one: a plain piece has no expression for a target, and a span has
nothing behind the braces that close it.
-/

namespace UiMarkdown

theorem Text.dropWhile_append_of_cons {p : Char → Bool} {s rest : List Char} {c : Char}
    (stops : s.dropWhile p = c :: rest) (t : List Char) :
    (s ++ t).dropWhile p = c :: (rest ++ t) := by
  rw [List.dropWhile_append, stops]
  rfl

namespace Fragment

open Template

/-! ## Reading an image in front of more text -/

theorem isSome_readTargetEnd?_append {s : List Char} (read : (readTargetEnd? s).isSome)
    (t : List Char) : (readTargetEnd? (s ++ t)).isSome := by
  rw [readTargetEnd?] at read
  split at read
  · rename_i rest closed
    cases stops : s.dropWhile isTargetChar with
    | nil =>
        rw [stops] at closed
        cases closed
    | cons c more =>
        rw [stops] at closed
        rw [readTargetEnd?, Text.dropWhile_append_of_cons stops, ← List.cons_append,
          Text.dropWhile_append_of_cons closed]
        rfl
  · cases read

theorem isSome_readTargetBody?_append {s : List Char} (read : (readTargetBody? s).isSome)
    (t : List Char) : (readTargetBody? (s ++ t)).isSome := by
  fun_induction readTargetBody? s with
  | case1 => cases read
  | case2 c rest tail after found =>
      obtain ⟨inside, closes, ends⟩ := Option.bind_eq_some_iff.1 found
      have closes' : closing.isPrefixOf? (c :: rest ++ t) = some (inside ++ t) := by
        rw [List.isPrefixOf?_eq_some_iff_append_eq] at closes ⊢
        rw [← List.append_assoc, closes]
      have ends' := isSome_readTargetEnd?_append (Option.isSome_of_eq_some ends) t
      obtain ⟨found', ends'⟩ := Option.isSome_iff_exists.1 ends'
      rw [List.cons_append] at closes' ⊢
      rw [readTargetBody?, closes', Option.bind_some, ends']
      rfl
  | case3 c rest _ _ => cases read
  | case4 c rest none feed ih =>
      rw [Option.isSome_map] at read
      have later := ih read
      rw [List.cons_append, readTargetBody?]
      split
      · rfl
      · rw [if_neg feed, Option.isSome_map]
        exact later

theorem isSome_readTarget?_append {s : List Char} (read : (readTarget? s).isSome)
    (t : List Char) : (readTarget? (s ++ t)).isSome := by
  fun_induction readTarget? s with
  | case1 => cases read
  | case2 c rest later url after found =>
      rename_i ih
      rw [Option.ite_none_right_eq_some] at found
      have inside := ih (Option.isSome_of_eq_some found.2)
      obtain ⟨found', inside⟩ := Option.isSome_iff_exists.1 inside
      rw [List.cons_append, readTarget?, if_pos found.1, inside]
      rfl
  | case3 c rest later none inside opens =>
      rw [Option.isSome_map] at read
      have body := isSome_readTargetBody?_append read t
      have opens' : opening.isPrefixOf? (c :: (rest ++ t)) = some (inside ++ t) := by
        rw [List.isPrefixOf?_eq_some_iff_append_eq] at opens ⊢
        rw [← List.append_assoc, opens, List.cons_append]
      rw [List.cons_append, readTarget?]
      split
      · rfl
      · rw [opens', Option.isSome_map]
        exact body
  | case4 => cases read

/-- An image is found where it was when more text follows. -/
theorem isSome_readImage?_append {s : List Char} (read : (readImage? s).isSome) (t : List Char) :
    (readImage? (s ++ t)).isSome := by
  rw [readImage?.eq_def] at read
  split at read
  · rename_i rest
    dsimp only at read
    split at read
    · rename_i target closed
      rw [Option.isSome_map] at read
      have target' : (readTarget? ((target ++ t).dropWhile Text.isBlank)).isSome := by
        cases stops : target.dropWhile Text.isBlank with
        | nil =>
            rw [stops] at read
            cases read
        | cons c more =>
            rw [stops] at read
            rw [Text.dropWhile_append_of_cons stops, ← List.cons_append]
            exact isSome_readTarget?_append read t
      rw [List.cons_append, List.cons_append, readImage?]
      dsimp only
      rw [Text.dropWhile_append_of_cons closed, List.cons_append]
      exact Option.isSome_map.trans target'
    · cases read
  · cases read

/-! ## Images anywhere in a text -/

theorem hasImage_iff {s : List Char} :
    hasImage s = true ↔ ∃ v, v <:+ s ∧ (readImage? v).isSome := by
  induction s with
  | nil =>
      constructor
      · intro image
        cases image
      · rintro ⟨v, ends, read⟩
        rw [List.suffix_nil.1 ends] at read
        cases read
  | cons c rest ih =>
      rw [hasImage, Bool.or_eq_true, ih]
      simp only [List.suffix_cons_iff, or_and_right, exists_or, exists_eq_left]

/-! ## Between images -/

def NoneStarts (a s : List Char) : Prop :=
  ∀ v, v <:+ a → v ≠ [] → readImage? (v ++ s) = none

namespace NoneStarts

theorem nil (s : List Char) : NoneStarts [] s :=
  fun _ ends nonempty => absurd (List.suffix_nil.1 ends) nonempty

theorem concat {a s : List Char} {c : Char} (bare : NoneStarts a (c :: s))
    (next : readImage? (c :: s) = none) : NoneStarts (a ++ [c]) s := by
  intro v ends nonempty
  rcases List.suffix_concat_iff.1 ends with rfl | ⟨u, rfl, inner⟩
  · exact absurd rfl nonempty
  · rw [List.append_assoc, List.singleton_append]
    cases u with
    | nil => exact next
    | cons d u => exact bare (d :: u) inner (List.cons_ne_nil d u)

theorem imageless {a s : List Char} (bare : NoneStarts a s) : hasImage a = false := by
  rw [Bool.eq_false_iff, ne_eq, hasImage_iff]
  rintro ⟨v, ends, read⟩
  cases v with
  | nil => cases read
  | cons c v =>
      have longer := isSome_readImage?_append read s
      rw [bare (c :: v) ends (List.cons_ne_nil c v)] at longer
      cases longer

end NoneStarts

/-- A node that is no text with an image in it. -/
def Imageless : Fragment → Prop
  | .text value => hasImage value.toList = false
  | _ => True

theorem imageless_of_mem_textNode {s : List Char} {node : Fragment} (plain : hasImage s = false)
    (mem : node ∈ textNode s) : node.Imageless := by
  rw [textNode] at mem
  split at mem
  · cases mem
  · rw [List.mem_singleton.1 mem, Imageless, String.toList_ofList]
    exact plain

/-- The texts that remain between the images of a text have none. -/
theorem imageless_of_mem_splitImagesFrom {fuel : Nat} {before s : List Char} {node : Fragment}
    (enough : s.length ≤ fuel) (bare : NoneStarts before.reverse s)
    (mem : node ∈ splitImagesFrom fuel before s) : node.Imageless := by
  fun_induction splitImagesFrom fuel before s with
  | case1 before s =>
      obtain rfl := List.length_eq_zero_iff.1 (Nat.le_zero.1 enough)
      rw [List.append_nil] at mem
      exact imageless_of_mem_textNode bare.imageless mem
  | case2 fuel before => exact imageless_of_mem_textNode bare.imageless mem
  | case3 fuel before c rest alt url after read ih =>
      rcases List.mem_append.1 mem with mem | mem
      · exact imageless_of_mem_textNode bare.imageless mem
      · rcases List.mem_cons.1 mem with rfl | mem
        · trivial
        · refine ih ?_ (.nil after) mem
          have whole := congrArg List.length (flatten_imageSegments read)
          simp only [imageSegments, List.flatten_cons, List.length_append,
            List.length_cons] at whole
          rw [List.length_cons] at enough
          omega
  | case4 fuel before c rest read ih =>
      refine ih (Nat.le_of_succ_le_succ enough) ?_ mem
      rw [List.reverse_cons]
      exact bare.concat read

theorem imageless_of_mem_mergeImages {nodes : List Fragment} {node : Fragment}
    (mem : node ∈ mergeImages nodes) : node.Imageless := by
  obtain ⟨source, -, mem⟩ := List.mem_flatMap.1 mem
  cases source with
  | text value =>
      dsimp only at mem
      split at mem
      · have bare : NoneStarts ([] : List Char).reverse value.toList := .nil _
        exact imageless_of_mem_splitImagesFrom (Nat.le_refl _) bare mem
      · rename_i plain
        rw [List.mem_singleton.1 mem]
        exact Bool.of_not_eq_true plain
  | _ =>
      rw [List.mem_singleton.1 mem]
      trivial

/-- Where no text has an image, none is made. -/
theorem mergeImages_of_imageless {nodes : List Fragment} (plain : ∀ node ∈ nodes, node.Imageless) :
    mergeImages nodes = nodes := by
  induction nodes with
  | nil => rfl
  | cons node more ih =>
      rw [List.forall_mem_cons] at plain
      rw [mergeImages] at ih ⊢
      rw [List.flatMap_cons, ih plain.2]
      cases node with
      | text value =>
          dsimp only
          rw [plain.1, if_neg Bool.false_ne_true, List.singleton_append]
      | _ => rfl

/-! ## Pieces of a text with expressions -/

theorem exists_closing_of_readTargetBody? {s body after : List Char}
    (read : readTargetBody? s = some (body, after)) : ∃ m tail, body = m ++ (closing ++ tail) := by
  fun_induction readTargetBody? s generalizing body with
  | case1 => cases read
  | case2 c rest tail after' found =>
      cases read
      exact ⟨[], tail, rfl⟩
  | case3 c rest _ _ => cases read
  | case4 c rest _ _ ih =>
      obtain ⟨⟨body', after'⟩, found, same⟩ := Option.map_eq_some_iff.1 read
      cases same
      obtain ⟨m, tail, rfl⟩ := ih found
      exact ⟨c :: m, tail, rfl⟩

/-- The target of an image holds an expression. -/
theorem hasSpan_of_readTarget? {s url after : List Char}
    (read : readTarget? s = some (url, after)) : HasSpan url := by
  fun_induction readTarget? s generalizing url with
  | case1 => cases read
  | case2 c rest later url' after' found =>
      rename_i ih
      cases read
      rw [Option.ite_none_right_eq_some] at found
      have later := ih found.2
      exact later.of_infix (List.suffix_cons c url').isInfix
  | case3 c rest later none inside opens =>
      obtain ⟨⟨body, after'⟩, found, same⟩ := Option.map_eq_some_iff.1 read
      cases same
      obtain ⟨m, tail, rfl⟩ := exists_closing_of_readTargetBody? found
      exact ⟨[], m, tail, by simp [Piece.text]⟩
  | case4 => cases read

/-- An image holds an expression, and something stands behind it. -/
theorem exists_span_of_readImage? {s : List Char} (read : (readImage? s).isSome) :
    ∃ before body after, after ≠ [] ∧ s = before ++ ((Piece.span body).text ++ after) := by
  obtain ⟨⟨alt, url, after⟩, read⟩ := Option.isSome_iff_exists.1 read
  obtain ⟨target, rfl, found⟩ := exists_target_of_readImage? read
  obtain ⟨trail, -, split⟩ := eq_append_of_readTarget? found
  obtain ⟨x, body, y, rfl⟩ := hasSpan_of_readTarget? found
  obtain ⟨lead, whole⟩ : target.dropWhile Text.isBlank <:+ target := List.dropWhile_suffix _
  refine ⟨'!' :: '[' :: alt ++ ']' :: '(' :: lead ++ x, body, y ++ (trail ++ ')' :: after),
    by simp, ?_⟩
  rw [← whole, split]
  simp

theorem hasImage_eq_false_of_mem_pieces {s : List Char} {piece : Piece} (mem : piece ∈ pieces s) :
    hasImage piece.text = false := by
  rw [Bool.eq_false_iff, ne_eq, hasImage_iff]
  rintro ⟨v, ⟨u, ends⟩, read⟩
  obtain ⟨before, body, after, some, rfl⟩ := exists_span_of_readImage? read
  cases piece with
  | plain t =>
      rw [Piece.text] at ends
      exact not_hasSpan_of_mem_pieces mem ⟨u ++ before, body, after, by rw [← ends]; simp⟩
  | span body' =>
      -- the braces that close the expression would be followed by others
      obtain ⟨front, last, rfl⟩ := List.eq_nil_or_concat' after |>.resolve_left some
      have once : ¬ Closes body' := closesOnce_of_mem_pieces mem
      have whole : (u ++ (before ++ ((Piece.span body).text ++ front))) ++ [last] =
          ('\x7b' :: '\x7b' :: (body' ++ ['\x7d'])) ++ ['\x7d'] := by
        simpa [Piece.text, opening, closing] using ends
      obtain ⟨inner, -⟩ := List.append_inj' whole rfl
      have closes : closing <:+: '\x7b' :: '\x7b' :: (body' ++ ['\x7d']) :=
        ⟨u ++ before ++ opening ++ body, front, by rw [← inner]; simp [Piece.text]⟩
      rw [Text.infix_cons_iff_of_not_mem (by decide) (by decide),
        Text.infix_cons_iff_of_not_mem (by decide) (by decide)] at closes
      exact once closes

end Fragment

end UiMarkdown
