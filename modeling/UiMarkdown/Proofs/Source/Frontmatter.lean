import UiMarkdown.Proofs.Source.Split
import UiMarkdown.Proofs.Yaml.Writer
import UiMarkdown.Compile.Document
import UiMarkdown.Source.Writer

/-!
# The frontmatter of a written document

A source splits where it was put together: no line of the written metadata
closes the frontmatter, and a body that opens with a delimiter has an empty
frontmatter before it.
-/

namespace UiMarkdown

namespace Frontmatter

/-- A closing line starts with a document mark. -/
theorem exists_prefix_of_isClosing {line : List Char} (closing : isClosing line = true) :
    ∃ mark ∈ Yaml.documentMarks, mark <+: line := by
  obtain ⟨mark, isMark, ending, rfl, -⟩ := isClosing_iff.1 closing
  exact ⟨mark, isMark, List.prefix_append mark ending⟩

/-- No line of a written mapping closes frontmatter. -/
theorem isClosing_of_mem_writeMapping {members : List (String × Json)} {line : List Char}
    (mem : line ∈ Text.linesWithEnds (Yaml.writeMapping members)) : isClosing line = false := by
  obtain ⟨before, after, split, ends⟩ := Text.exists_of_mem_linesWithEnds mem
  have unmarked : Yaml.Unmarked (line ++ after) := by
    rcases List.eq_nil_or_concat' before with rfl | ⟨earlier, last, rfl⟩
    · rw [List.nil_append] at split
      rw [← split]
      exact Yaml.unmarked_writeMapping members
    · cases ends last List.getLast?_concat
      refine Yaml.inside_writeMapping members earlier _ ?_
      rw [split, List.append_assoc]
      rfl
  by_contra closing
  obtain ⟨mark, isMark, starts⟩ := exists_prefix_of_isClosing (Bool.of_not_eq_false closing)
  exact unmarked.not_prefix isMark (starts.trans (List.prefix_append line after))

/-- A line of hyphens, a mapping and a line of hyphens are frontmatter. -/
theorem split_of_frontmatter {yaml : List Char}
    (opened : ∀ line ∈ Text.linesWithEnds yaml, isClosing line = false)
    (ends : Text.EndsLine yaml) (body : List Char) :
    split (delimiter ++ ['\n'] ++ yaml ++ (delimiter ++ ['\n']) ++ body) = (some yaml, body) := by
  have closes : Closes (delimiter ++ ['\n']) := isClosing_iff.1 (by decide)
  have isLine : Text.IsLine (delimiter ++ ['\n'] ++ yaml) (delimiter ++ ['\n']) body :=
    { starts := (Text.endsLine_append_feed delimiter).append ends
      nonempty := List.concat_ne_nil _ _
      single := by decide
      ends := fun _ => Text.endsLine_append_feed delimiter }
  exact split_eq_some_iff.2
    ⟨⟨_, List.mem_cons_self, _, closes, rfl, isLine⟩, unclosed_iff.2 opened⟩

/-- A source that does not open with a line of hyphens has no frontmatter. -/
theorem split_of_not_prefix {source : List Char} (plain : ¬ delimiter <+: source) :
    split source = (none, source) := by
  refine split_eq_none_iff.2 ⟨rfl, .inl fun opening isOpening starts => plain ?_⟩
  rcases List.mem_pair.1 isOpening with rfl | rfl <;>
    exact (List.prefix_append delimiter _).trans starts

end Frontmatter

namespace Meta

/-- Frontmatter without text gives no keys. -/
theorem ofFrontmatter_getD (frontmatter : Option (List Char)) :
    ofFrontmatter (some (frontmatter.getD [])) = ofFrontmatter frontmatter := by
  cases frontmatter <;> rfl

end Meta

namespace Document

/-- The body that the source of a document is written with. -/
def sourceBody (document : Document) : List Char :=
  if document.bodyText.isEmpty then []
  else (if document.headText.isEmpty then [] else ['\n']) ++ document.bodyText ++ ['\n']

theorem frontmatter?_of_headText {document : Document} (head : document.headText = []) :
    document.metadata.frontmatter? = none := by
  cases found : document.metadata.frontmatter? with
  | none => rfl
  | some yaml =>
      rw [headText, found] at head
      cases head

theorem write_eq (document : Document) :
    document.write = document.headText ++ document.sourceBody := by
  rw [write, sourceBody]
  cases document.bodyText.isEmpty with
  | true => simp
  | false =>
      cases head : document.headText.isEmpty with
      | true => simp [List.isEmpty_iff.1 head]
      | false => simp

/-- A source without metadata has no frontmatter unless its body opens with a delimiter. -/
theorem not_prefix_sourceBody {document : Document} (head : document.headText = [])
    (opens : ¬ Frontmatter.delimiter <+: document.bodyText) :
    ¬ Frontmatter.delimiter <+: document.sourceBody := by
  rw [sourceBody, head]
  split
  · rw [List.prefix_nil]
    exact List.cons_ne_nil _ _
  · intro starts
    rcases List.prefix_concat_iff.1 starts with same | starts
    · have feed : '\n' ∈ Frontmatter.delimiter := by
        rw [same]
        exact List.mem_append_right _ List.mem_cons_self
      exact absurd feed (by decide)
    · exact opens starts

/-- A source splits where it was put together. -/
theorem split_write {document : Document}
    (ends : ∀ yaml ∈ document.metadata.frontmatter?, Text.EndsLine yaml) :
    Frontmatter.split document.write =
      (if document.headText.isEmpty then none
        else some (document.metadata.frontmatter?.getD []), document.sourceBody) := by
  rw [write_eq]
  cases found : document.metadata.frontmatter? with
  | some yaml =>
      have head : document.headText = Frontmatter.delimiter ++ ['\n'] ++ yaml ++
          (Frontmatter.delimiter ++ ['\n']) := by
        rw [headText, found]
      have opened : ∀ line ∈ Text.linesWithEnds yaml, Frontmatter.isClosing line = false := by
        intro line mem
        rw [Meta.frontmatter?] at found
        split at found
        · cases found
        · cases found
          exact Frontmatter.isClosing_of_mem_writeMapping mem
      rw [head, Frontmatter.split_of_frontmatter opened (ends yaml found)]
      rfl
  | none =>
      cases opens : Frontmatter.delimiter.isPrefixOf document.bodyText with
      | true =>
          have head : document.headText = Frontmatter.delimiter ++ ['\n'] ++ [] ++
              (Frontmatter.delimiter ++ ['\n']) := by
            simp only [headText, found, opens, if_true, List.append_nil]
          rw [head, Frontmatter.split_of_frontmatter (List.forall_mem_nil _) Text.endsLine_nil]
          rfl
      | false =>
          have head : document.headText = [] := by
            simp only [headText, found, opens, Bool.false_eq_true, if_false]
          have plain : ¬ Frontmatter.delimiter <+: document.bodyText := by
            rw [← List.isPrefixOf_iff_prefix, opens]
            exact Bool.false_ne_true
          rw [head, List.nil_append,
            Frontmatter.split_of_not_prefix (not_prefix_sourceBody head plain)]
          rfl

end Document

end UiMarkdown
