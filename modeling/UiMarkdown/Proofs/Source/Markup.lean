import UiMarkdown.Proofs.Compile.Html
import UiMarkdown.Proofs.Markdown.Position
import UiMarkdown.Proofs.Source.Legacy
import UiMarkdown.Proofs.Source.Origin
import UiMarkdown.Proofs.Source.RoundTrip
import UiMarkdown.Proofs.Template.Seam
import UiMarkdown.Proofs.Text.Occurrence

/-!
# The span of raw Html

An error for raw Html shows the first raw piece of the body, but its span is where the
characters of that piece are found first in the whole source.  So the span always holds
the markup that is shown; it lies on the lines of the block with the piece exactly if
the markup stands there as it is shown and no occurrence starts before these lines, be it
in the frontmatter, in a code block or in an expression.
-/

namespace UiMarkdown

namespace Text

/-! ## Places of a search -/

/-- Of two beginnings of a text the one with fewer bytes is a beginning of the other. -/
theorem byteLength_le_iff {a b s : List Char} (left : a <+: s) (right : b <+: s) :
    byteLength a ≤ byteLength b ↔ a <+: b := by
  constructor
  · intro le
    rcases List.prefix_or_prefix_of_prefix left right with within | ⟨more, rfl⟩
    · exact within
    · rw [byteLength_append] at le
      have empty : more = [] := byteLength_eq_zero_iff.1 (by omega)
      rw [empty, List.append_nil]
  · rintro ⟨more, rfl⟩
    rw [byteLength_append]
    exact Nat.le_add_right _ _

/-- What is found first lies in a part of a text exactly if the part holds the pattern and no
occurrence starts before the part. -/
theorem cutOn?_within_iff {pattern front back earlier own later : List Char}
    (cut : cutOn? pattern (earlier ++ (own ++ later)) = some (front, back)) :
    earlier <+: front ∧ front ++ pattern <+: earlier ++ own ↔
      pattern <:+: own ∧ ¬ StartsIn pattern earlier (own ++ later) := by
  have whole := eq_append_of_cutOn? cut
  constructor
  · rintro ⟨⟨w, rfl⟩, within⟩
    rw [List.append_assoc, List.prefix_append_right_inj] at within
    refine ⟨(List.suffix_append w pattern).isInfix.trans within.isInfix, ?_⟩
    rintro ⟨u, v, rfl, nonempty, starts⟩
    apply not_startsIn_of_cutOn? cut
    have behind : v ++ (own ++ later) = v ++ w ++ (pattern ++ back) := by
      simpa [List.append_assoc] using whole
    exact ⟨u, v ++ w, List.append_assoc _ _ _, by simp [nonempty], behind ▸ starts⟩
  · rintro ⟨⟨u, v, holds⟩, free⟩
    rw [cutOn?_append_of_not_startsIn free, Option.map_eq_some_iff] at cut
    obtain ⟨⟨front', back'⟩, cut, same⟩ := cut
    cases same
    refine ⟨List.prefix_append _ _, ?_⟩
    rw [List.append_assoc, List.prefix_append_right_inj]
    have occurrence : own ++ later = u ++ pattern ++ (v ++ later) := by
      rw [← holds, List.append_assoc, List.append_assoc]
    obtain ⟨x, rfl⟩ := suffix_of_cutOn? cut occurrence
    refine ⟨x ++ v, (List.append_left_inj later).1 ?_⟩
    rw [eq_append_of_cutOn? cut, List.append_assoc _ (x ++ v), List.append_assoc x]

end Text

/-! ## Errors of raw Html -/

namespace CompileError

/-- The span of raw Html is the place where the markup is found first. -/
theorem exists_cut_of_ofHtml {piece document : List Char} {markup : String} {offset length : Nat}
    (shown : ofHtml piece document = .html markup (some (offset, length))) :
    markup = String.ofList (Text.trim piece) ∧
      ∃ front back, Text.cutOn? markup.toList document = some (front, back) ∧
        Text.byteLength front = offset ∧ Text.byteLength markup.toList = length := by
  rw [ofHtml] at shown
  simp only [CompileError.html.injEq] at shown
  obtain ⟨rfl, place⟩ := shown
  refine ⟨rfl, ?_⟩
  split at place
  · cases place
  · obtain ⟨⟨front, back⟩, cut, same⟩ := Option.map_eq_some_iff.1 place
    cases same
    rw [String.toList_ofList]
    exact ⟨front, back, cut, rfl, rfl⟩

end CompileError

namespace Meta

theorem ofFrontmatter_ne_html {frontmatter : Option (List Char)} {markup : String}
    {span : Option (Nat × Nat)} : ofFrontmatter frontmatter ≠ .error (.html markup span) := by
  intro failed
  cases frontmatter with
  | none => cases failed
  | some yaml =>
      rw [ofFrontmatter, Frontmatter.parse] at failed
      split at failed
      · cases failed
      · split at failed <;> cases failed

end Meta

namespace Document

/-- Neither metadata nor queries are refused for raw Html, only the body of a source is. -/
theorem ofText_of_compile_eq_html {options : CompileOptions} {source : List Char} {markup : String}
    {span : Option (Nat × Nat)} (failed : compile options source = .error (.html markup span)) :
    Node.ofText options (Frontmatter.split source).2 source = .error (.html markup span) := by
  rw [compile] at failed
  generalize Frontmatter.split source = parts at failed ⊢
  obtain ⟨frontmatter, body⟩ := parts
  dsimp only at failed ⊢
  cases read : Meta.ofFrontmatter frontmatter with
  | error error =>
      rw [read] at failed
      cases failed
      exact absurd read Meta.ofFrontmatter_ne_html
  | ok metadata =>
      cases built : Node.ofText options body source with
      | error error =>
          rw [read, built] at failed
          cases failed
          rfl
      | ok ast =>
          cases legacy : Legacy.check? options.legacyAuthors metadata.queries with
          | none => simp [read, built, legacy, bind, Except.bind, pure, Except.pure] at failed
          | some error =>
              simp only [read, built, legacy, bind, Except.bind, Except.error.injEq] at failed
              rw [Legacy.check?_eq, failed, Option.map_eq_some_iff] at legacy
              obtain ⟨entry, -, same⟩ := legacy
              cases same

/-! ## Blocks on lines -/

/-- What is read of a source before a block, the lines of the block, and the rest of the source. -/
structure OnLines (source : List Char) (placed : Markdown.Placed) (earlier own later : List Char) :
    Prop where
  whole : source = earlier ++ (own ++ later)
  begins : upTo (placed.first - 1) source = earlier
  ends : upTo placed.last source = earlier ++ own

theorem exists_onLines (source : List Char) {placed : Markdown.Placed}
    (forward : placed.first ≤ placed.last) :
    ∃ earlier own later, OnLines source placed earlier own later := by
  obtain ⟨own, ends⟩ := upTo_mono (Nat.le_trans (Nat.sub_le _ 1) forward) source
  obtain ⟨later, whole⟩ := prefix_upTo placed.last source
  exact ⟨_, own, later, by rw [← List.append_assoc, ends, whole], rfl, ends.symm⟩

/-- A block that ends before another one begins stands before it. -/
theorem OnLines.prefix_of_lt {source earlier own later earlier' own' later' : List Char}
    {a b : Markdown.Placed} (first : OnLines source a earlier own later)
    (second : OnLines source b earlier' own' later') (apart : a.last < b.first) :
    earlier ++ own <+: earlier' := by
  rw [← first.ends, ← second.begins]
  exact upTo_mono (Nat.le_sub_one_of_lt apart) source

/-! ## The span of an error -/

/--
The span of an error for raw Html holds the markup that is shown, which is that of the first
raw piece of the body.  It lies on the lines of the block with this piece, and so apart from
the frontmatter and from all other blocks, exactly if the markup stands on these lines and no
occurrence of it starts before them.
-/
theorem span_of_compile_eq_html {options : CompileOptions} {source : List Char} {markup : String}
    {offset length : Nat}
    (failed : compile options source = .error (.html markup (some (offset, length)))) :
    (∃ front back, source = front ++ (markup.toList ++ back) ∧ Text.byteLength front = offset ∧
      Text.byteLength markup.toList = length) ∧
    ∃ before placed after piece earlier own later,
      Body.blocksOf options (Frontmatter.split source).2 = before ++ placed :: after ∧
      (∀ other ∈ before, other.block.rawPieces = []) ∧
      placed.block.rawPieces.head? = some piece ∧
      markup.toList = Text.trim ((Mask.ofText (Frontmatter.split source).2).2.restore piece) ∧
      OnLines source placed earlier own later ∧
      (∃ head, source = head ++ (Frontmatter.split source).2 ∧ head <+: earlier) ∧
      (∀ other ∈ before ++ after, ∀ earlier' own' later',
        OnLines source other earlier' own' later' →
          earlier' ++ own' <+: earlier ∨ earlier ++ own <+: earlier') ∧
      (Text.byteLength earlier ≤ offset ∧ offset + length ≤ Text.byteLength (earlier ++ own) ↔
        markup.toList <:+: own ∧ ¬ Text.StartsIn markup.toList earlier (own ++ later)) := by
  have refused := ofText_of_compile_eq_html failed
  rw [Node.ofText_eq_treeOf] at refused
  obtain ⟨piece, isFirst, shown⟩ :=
    ((Body.ofText (Frontmatter.split source).2 source).refuses_treeOf
      (Body.blocksOf options (Frontmatter.split source).2)).eq_error_iff.1 refused
  obtain ⟨markup_eq, front, back, cut, rfl, rfl⟩ := CompileError.exists_cut_of_ofHtml shown.symm
  rw [Body.rawPiecesOf, List.head?_flatMap, Option.mem_def, List.findSome?_eq_some_iff] at isFirst
  obtain ⟨before, placed, after, blocks, head, none⟩ := isFirst
  have order : Markdown.InOrder _ (Body.blocksOf options (Frontmatter.split source).2) :=
    Markdown.inOrder_parse options.extensions _
  rw [blocks] at order
  have lies := order.placed placed (List.mem_append_right _ List.mem_cons_self)
  obtain ⟨earlier, own, later, lines⟩ := exists_onLines source lies.2.1
  refine ⟨⟨front, back, ?_, rfl, rfl⟩, before, placed, after, piece, earlier, own, later, blocks,
    fun other mem => List.head?_eq_none_iff.1 (none other mem), head, ?_, lines, ?_, ?_, ?_⟩
  · rw [← List.append_assoc]
    exact Text.eq_append_of_cutOn? cut
  · rw [markup_eq, String.toList_ofList]
    rfl
  · refine ⟨upTo 0 source, (upTo_zero_append source).symm, ?_⟩
    rw [← lines.begins]
    exact upTo_mono (Nat.zero_le _) source
  · intro other mem earlier' own' later' others
    have apart := List.pairwise_append.1 order.apart
    rcases List.mem_append.1 mem with isBefore | isAfter
    · exact .inl (others.prefix_of_lt lines (apart.2.2 other isBefore placed List.mem_cons_self))
    · exact .inr (lines.prefix_of_lt others ((List.pairwise_cons.1 apart.2.1).1 other isAfter))
  · have found := Text.eq_append_of_cutOn? cut
    have read : earlier ++ own <+: source := by
      rw [← lines.ends]
      exact prefix_upTo _ _
    have shown : front ++ markup.toList <+: source := ⟨back, found.symm⟩
    rw [← Text.byteLength_append, Text.byteLength_le_iff shown read,
      Text.byteLength_le_iff ((List.prefix_append _ _).trans read)
        ((List.prefix_append _ _).trans shown)]
    exact Text.cutOn?_within_iff (lines.whole ▸ cut)

/-- Other markup stands in a code block, an expression runs over a line, a blank line is put before
a fence, and a carriage return ends a line of the block. -/
theorem span_of_compile_eq_html_in_quote :
    let source := ("---\nname: a\n---\n\x60\x60\x60\n<b>\n\x60\x60\x60\n\x7b\x7b '\n' \x7d\x7d\n" ++
      "\x60\x60\x60hstack.start\n\x60\x60\x60\n> c\r> d <i> e\n").toList
    compile {} source = .error (.html "<i>" (some (66, 3))) ∧
      ∃ placed ∈ Body.blocksOf {} (Frontmatter.split source).2, ∃ earlier own later,
        OnLines source placed earlier own later ∧
        (Text.byteLength earlier ≤ 66 ∧ 66 + 3 ≤ Text.byteLength (earlier ++ own) ↔
          "<i>".toList <:+: own ∧ ¬ Text.StartsIn "<i>".toList earlier (own ++ later)) := by
  intro source
  have failed : compile {} source = .error (.html "<i>" (some (66, 3))) := by decide +kernel
  obtain ⟨-, before, placed, after, piece, earlier, own, later, blocks, -, -, -, lines, -, -,
    within⟩ := span_of_compile_eq_html failed
  exact ⟨failed, placed, blocks ▸ List.mem_append_right _ List.mem_cons_self, earlier, own, later,
    lines, within⟩

/-- The same characters in the frontmatter draw the span out of the body. -/
theorem not_in_body_of_same_markup :
    let source := "---\nname: a <i>\n---\n\nb <i>\n".toList
    compile {} source = .error (.html "<i>" (some (12, 3))) ∧
      12 + 3 ≤ Text.byteLength (upTo 0 source) ∧
      ¬ ∀ options source markup offset length,
        compile options source = .error (.html markup (some (offset, length))) →
          Text.byteLength (upTo 0 source) ≤ offset := by
  intro source
  have failed : compile {} source = .error (.html "<i>" (some (12, 3))) := by decide +kernel
  have ahead : 12 + 3 ≤ Text.byteLength (upTo 0 source) := by decide +kernel
  refine ⟨failed, ahead, fun inside => ?_⟩
  have behind := inside _ _ _ _ _ failed
  omega

end Document

end UiMarkdown
