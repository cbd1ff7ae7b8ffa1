import UiMarkdown.Proofs.Document.Run
import UiMarkdown.Proofs.Document.Strings

/-!
# Images in texts

A text is read as images and what lies between them.  The image shorthand is matched
without regard to expressions, so that one may lie across a seam of the shorthand: it
may begin in the description and end in the target.  When none does, the expressions of
the text stand whole in the strings of the nodes that it is split into.
-/

namespace UiMarkdown

namespace Fragment

open Template

/-- The texts that meet at the seams of an image, given its description and its target. -/
def imageSegments (s alt url : List Char) : List (List Char) :=
  let target := s.drop (alt.length + 4)
  let lead := target.takeWhile Text.isBlank
  let trail := (target.drop (lead.length + url.length)).takeWhile Text.isBlank
  [['!', '['], alt, ']' :: '(' :: lead, url, trail ++ [')']]

/--
The texts that meet at the seams of a text with images; `before` is the text since the
last image in reverse.
-/
def segmentsFrom : (fuel : Nat) → (before : List Char) → List Char → List (List Char)
  | 0, before, s => [before.reverse ++ s]
  | _, before, [] => [before.reverse]
  | fuel + 1, before, c :: rest =>
      match readImage? (c :: rest) with
      | some (alt, url, after) =>
          before.reverse :: imageSegments (c :: rest) alt url ++ segmentsFrom fuel [] after
      | none => segmentsFrom fuel (c :: before) rest

def segments (s : List Char) : List (List Char) :=
  segmentsFrom s.length [] s

/-! ## Reading an image -/

theorem eq_append_of_readTargetEnd? {s tail after : List Char}
    (read : readTargetEnd? s = some (tail, after)) :
    ∃ trail, trail.all Text.isBlank = true ∧ s = tail ++ (trail ++ ')' :: after) := by
  rw [readTargetEnd?] at read
  split at read
  · rename_i rest closed
    cases read
    refine ⟨(s.dropWhile isTargetChar).takeWhile Text.isBlank, List.all_takeWhile, ?_⟩
    rw [← closed, List.takeWhile_append_dropWhile, List.takeWhile_append_dropWhile]
  · cases read

theorem eq_append_of_readTargetBody? {s body after : List Char}
    (read : readTargetBody? s = some (body, after)) :
    ∃ trail, trail.all Text.isBlank = true ∧ s = body ++ (trail ++ ')' :: after) := by
  fun_induction readTargetBody? s generalizing body with
  | case1 => cases read
  | case2 c rest tail after' found =>
      cases read
      obtain ⟨inside, closes, ends⟩ := Option.bind_eq_some_iff.1 found
      obtain ⟨trail, blank, rfl⟩ := eq_append_of_readTargetEnd? ends
      refine ⟨trail, blank, ?_⟩
      rw [← List.isPrefixOf?_eq_some_iff_append_eq.1 closes, List.append_assoc]
  | case3 c rest _ _ => cases read
  | case4 c rest _ _ ih =>
      obtain ⟨⟨body', after'⟩, found, same⟩ := Option.map_eq_some_iff.1 read
      cases same
      obtain ⟨trail, blank, rfl⟩ := ih found
      exact ⟨trail, blank, rfl⟩

theorem eq_append_of_readTarget? {s url after : List Char}
    (read : readTarget? s = some (url, after)) :
    ∃ trail, trail.all Text.isBlank = true ∧ s = url ++ (trail ++ ')' :: after) := by
  fun_induction readTarget? s generalizing url with
  | case1 => cases read
  | case2 c rest later url' after' found =>
      rename_i ih
      cases read
      have inside : readTarget? rest = some (url', after) := by
        rw [Option.ite_none_right_eq_some] at found
        exact found.2
      obtain ⟨trail, blank, whole⟩ := ih inside
      exact ⟨trail, blank, congrArg (c :: ·) whole⟩
  | case3 c rest later none inside opens =>
      obtain ⟨⟨body, after'⟩, found, same⟩ := Option.map_eq_some_iff.1 read
      cases same
      obtain ⟨trail, blank, rfl⟩ := eq_append_of_readTargetBody? found
      refine ⟨trail, blank, ?_⟩
      rw [← List.isPrefixOf?_eq_some_iff_append_eq.1 opens, List.append_assoc]
  | case4 => cases read

/-- An image at the start of a text has a description, and its target is read behind that. -/
theorem exists_target_of_readImage? {s alt url after : List Char}
    (read : readImage? s = some (alt, url, after)) :
    ∃ target, s = '!' :: '[' :: (alt ++ ']' :: '(' :: target) ∧
      readTarget? (target.dropWhile Text.isBlank) = some (url, after) := by
  rw [readImage?.eq_def] at read
  split at read
  · rename_i rest
    dsimp only at read
    split at read
    · rename_i target closed
      obtain ⟨⟨url', after'⟩, found, same⟩ := Option.map_eq_some_iff.1 read
      cases same
      exact ⟨target, by rw [← closed, List.takeWhile_append_dropWhile], found⟩
    · cases read
  · cases read

theorem eq_append_of_readImage? {s alt url after : List Char}
    (read : readImage? s = some (alt, url, after)) :
    ∃ target trail, s = '!' :: '[' :: (alt ++ ']' :: '(' :: target) ∧
      trail.all Text.isBlank = true ∧
      target.dropWhile Text.isBlank = url ++ (trail ++ ')' :: after) := by
  obtain ⟨target, whole, found⟩ := exists_target_of_readImage? read
  obtain ⟨trail, blank, split⟩ := eq_append_of_readTarget? found
  exact ⟨target, trail, whole, blank, split⟩

/-- An image at the start of a text is put together from its segments. -/
theorem flatten_imageSegments {s alt url after : List Char}
    (read : readImage? s = some (alt, url, after)) :
    (imageSegments s alt url).flatten ++ after = s := by
  obtain ⟨target, trail, rfl, blank, whole⟩ := eq_append_of_readImage? read
  have behind : ('!' :: '[' :: (alt ++ ']' :: '(' :: target)).drop (alt.length + 4) = target := by
    simp
  obtain ⟨lead, leads, split⟩ : ∃ lead, target.takeWhile Text.isBlank = lead ∧
      target = lead ++ (url ++ (trail ++ ')' :: after)) :=
    ⟨_, rfl, by rw [← whole, List.takeWhile_append_dropWhile]⟩
  have ends : (trail ++ ')' :: after).takeWhile Text.isBlank = trail := by
    rw [List.takeWhile_append_of_pos (List.all_eq_true.1 blank),
      List.takeWhile_cons_of_neg (by decide), List.append_nil]
  have rest : target.drop (lead.length + url.length) = trail ++ ')' :: after := by
    simp [split]
  simp only [imageSegments, behind, leads, rest, ends]
  simp [split]

/-! ## The segments of a text -/

theorem flatten_segmentsFrom (fuel : Nat) (before s : List Char) :
    (segmentsFrom fuel before s).flatten = before.reverse ++ s := by
  fun_induction segmentsFrom fuel before s with
  | case1 before s => simp
  | case2 fuel before => simp
  | case3 fuel before c rest alt url after read ih =>
      rw [List.cons_append, List.flatten_cons, List.flatten_append, ih, List.reverse_nil,
        List.nil_append, flatten_imageSegments read]
  | case4 fuel before c rest read ih =>
      rw [ih]
      simp

/-- The segments of a text are put together to the text. -/
theorem flatten_segments (s : List Char) : (segments s).flatten = s :=
  flatten_segmentsFrom s.length [] s

theorem throughout_textNode (s : List Char) :
    throughout ownStrings (textNode s) = [s].filter fun text => !text.isEmpty := by
  cases s <;> simp [textNode, throughout_cons, ownStrings, children]

/-- The markup of an image has no spans. -/
theorem flatMap_spanTexts_imageSegments (s alt url : List Char) :
    (imageSegments s alt url).flatMap spanTexts = spanTexts alt ++ spanTexts url := by
  have plain {text : List Char} (absent : '\x7b' ∉ text) : spanTexts text = [] := by
    refine spanTexts_eq_nil (cutSpan?_eq_none_iff.2 ?_)
    rintro ⟨before, body, after, rfl⟩
    simp [Piece.text, opening] at absent
  have blank (text : List Char) : '\x7b' ∉ text.takeWhile Text.isBlank := by
    intro mem
    exact absurd (List.mem_takeWhile_imp mem) (by decide)
  have first : spanTexts ['!', '['] = [] := plain (by decide)
  have middle (text : List Char) : spanTexts (']' :: '(' :: text.takeWhile Text.isBlank) = [] :=
    plain (by simpa using blank text)
  have last (text : List Char) : spanTexts (text.takeWhile Text.isBlank ++ [')']) = [] :=
    plain (by simpa using blank text)
  simp only [imageSegments, List.flatMap_cons, List.flatMap_nil, first, middle, last,
    List.nil_append, List.append_nil]

theorem standAmong_textNode (s : List Char) :
    StandAmong (spanTexts s) (throughout ownStrings (textNode s)) := by
  rw [throughout_textNode]
  exact (StandAmong.singleton (standIn_spanTexts s)).filter_nonempty
    fun p mem => isSpan_of_mem_spanTexts mem

theorem standAmong_splitImagesFrom (fuel : Nat) (before s : List Char) :
    StandAmong ((segmentsFrom fuel before s).flatMap spanTexts)
      (throughout ownStrings (splitImagesFrom fuel before s)) := by
  fun_induction splitImagesFrom fuel before s with
  | case1 before s => simpa [segmentsFrom] using standAmong_textNode _
  | case2 fuel before => simpa [segmentsFrom] using standAmong_textNode _
  | case3 fuel before c rest alt url after read ih =>
      have image : StandAmong (spanTexts alt ++ spanTexts url) [alt, url] :=
        (StandAmong.singleton (standIn_spanTexts alt)).append
          (.singleton (standIn_spanTexts url))
      have whole := (standAmong_textNode before.reverse).append (image.append ih)
      simp only [segmentsFrom, read, List.cons_append, List.flatMap_cons, List.flatMap_append,
        flatMap_spanTexts_imageSegments]
      simpa [throughout_append, throughout_cons, ownStrings, children] using whole
  | case4 fuel before c rest read ih =>
      rw [segmentsFrom, read]
      exact ih

/-- The spans of a text stay whole when none lies across a seam of an image in it. -/
theorem standAmong_mergeImages_text {value : String}
    (whole : crosses (segments value.toList) = false) :
    StandAmong (spanTexts value.toList) (throughout ownStrings (mergeImages [.text value])) := by
  rw [mergeImages, List.flatMap_singleton]
  dsimp only
  split
  · have split := spanTexts_flatten (crosses_eq_false_iff.1 whole)
    rw [flatten_segments] at split
    rw [split]
    exact standAmong_splitImagesFrom _ _ _
  · simpa [throughout_cons, ownStrings, children] using
      StandAmong.singleton (standIn_spanTexts value.toList)

end Fragment

end UiMarkdown
