import UiMarkdown.Proofs.Source.Frontmatter
import UiMarkdown.Proofs.Yaml.Ending

/-!
# The boundary of a written document

Reading the source of a document splits it where writing put it together: into
the metadata, if there is any, and the blocks of the nodes.  All that it takes
is that the written metadata ends its last line, which only a text can prevent
that ends in a line break of another kind.
-/

namespace UiMarkdown

namespace Meta

/-- A section of the metadata is not empty, or it has a key of its own. -/
def HasKeys (metadata : Meta) : Prop :=
  metadata.identity ≠ [] ∨ metadata.queries ≠ [] ∨ metadata.actions ≠ [] ∨
    metadata.components ≠ [] ∨ metadata.events ≠ [] ∨ metadata.extra ≠ []

instance (metadata : Meta) : Decidable metadata.HasKeys :=
  inferInstanceAs (Decidable (_ ∨ _))

/-- Putting a member into its place leaves at least this member. -/
theorem replace_ne_nil (members : List (String × Json)) (key : String) (value : Json) :
    replace members key value ≠ [] := by
  rw [replace]
  split
  · rename_i found
    obtain ⟨member, mem, -⟩ := List.any_eq_true.1 found
    rw [ne_eq, List.map_eq_nil_iff]
    exact List.ne_nil_of_mem mem
  · exact List.concat_ne_nil _ _

theorem foldl_replace_eq_nil_iff {members more : List (String × Json)} :
    more.foldl (fun members (key, value) => replace members key value) members = [] ↔
      members = [] ∧ more = [] := by
  induction more generalizing members with
  | nil => simp
  | cons member more ih =>
      rw [List.foldl_cons, ih]
      simp [replace_ne_nil]

/-- The mapping of metadata is empty exactly when no section and no key is left to write. -/
theorem toMapping_eq_nil_iff {metadata : Meta} : metadata.toMapping = [] ↔ ¬ metadata.HasKeys := by
  rw [toMapping, foldl_replace_eq_nil_iff, List.map_eq_nil_iff, List.filter_eq_nil_iff]
  simp [HasKeys, and_assoc]

/-- The written frontmatter is the text of the mapping, if the metadata has a key. -/
theorem frontmatter?_eq (metadata : Meta) :
    metadata.frontmatter? =
      if metadata.HasKeys then some (Yaml.writeMapping metadata.toMapping) else none := by
  rw [frontmatter?]
  by_cases keys : metadata.HasKeys
  · rw [if_pos keys, if_neg]
    rw [List.isEmpty_iff, toMapping_eq_nil_iff, not_not]
    exact keys
  · rw [if_neg keys, if_pos]
    rw [List.isEmpty_iff, toMapping_eq_nil_iff]
    exact keys

/--
Metadata whose texts end in no line break but a line feed is written with its
last line ended.
-/
theorem endsLine_frontmatter? {metadata : Meta}
    (feeds : ∀ text ∈ Mask.textsOfMembers metadata.toMapping, Yaml.FeedsLast text) :
    ∀ yaml ∈ metadata.frontmatter?, Text.EndsLine yaml := by
  intro yaml written
  rw [frontmatter?] at written
  split at written
  · cases written
  · cases written
    exact Yaml.endsLine_writeMapping feeds

end Meta

namespace Frontmatter

/-- What is split off as frontmatter ends its last line. -/
theorem endsLine_of_split {source yaml : List Char} (found : (split source).1 = some yaml) :
    Text.EndsLine yaml := by
  have framed : Framed source yaml (split source).2 := split_eq_some_iff.1 (Prod.ext found rfl)
  obtain ⟨opening, -, closing, -, -, isLine⟩ := framed.whole
  exact isLine.of_append_left.starts

end Frontmatter

namespace Document

/--
The source of a document splits where it was put together.  Its frontmatter is
the written mapping of the metadata; a document without keys has none, or an
empty one before a body that would be taken for one.  Its body is the blocks of
the nodes with blank lines between them, and at most a line feed around that.
-/
structure SplitsAtBoundary (document : Document) : Prop where
  metadata : document.metadata.HasKeys → (Frontmatter.split document.write).1 =
    some (Yaml.writeMapping document.metadata.toMapping)
  bare : ¬ document.metadata.HasKeys → (Frontmatter.split document.write).1 =
    if Frontmatter.delimiter <+: document.bodyText then some [] else none
  body : ∃ before ∈ [[], ['\n']], ∃ after ∈ [[], ['\n']],
    (Frontmatter.split document.write).2 =
      before ++ ['\n', '\n'].intercalate (Node.blocksOfAll document.ast) ++ after

/-- Around the blocks, the written body has at most a line feed on either side. -/
theorem exists_sourceBody_eq (document : Document) :
    ∃ before ∈ [[], ['\n']], ∃ after ∈ [[], ['\n']],
      document.sourceBody = before ++ document.bodyText ++ after := by
  rw [sourceBody]
  cases body : document.bodyText with
  | nil => exact ⟨[], by simp, [], by simp, rfl⟩
  | cons c rest =>
      refine ⟨if document.headText.isEmpty then [] else ['\n'], ?_, ['\n'], by simp, rfl⟩
      split <;> simp

theorem splitsAtBoundary_of_endsLine {document : Document}
    (ends : ∀ yaml ∈ document.metadata.frontmatter?, Text.EndsLine yaml) :
    document.SplitsAtBoundary := by
  have split := split_write ends
  have parts := Meta.frontmatter?_eq document.metadata
  refine ⟨fun keys => ?_, fun bare => ?_, ?_⟩
  · rw [if_pos keys] at parts
    rw [split, headText, parts]
    rfl
  · rw [if_neg bare] at parts
    rw [split, headText, parts]
    by_cases opens : Frontmatter.delimiter <+: document.bodyText
    · simp [opens]
    · simp [opens]
  · rw [split]
    exact document.exists_sourceBody_eq

/-- No text of the metadata can move the boundary unless it ends in an uncommon line break. -/
theorem splitsAtBoundary_of_feedsLast {document : Document}
    (feeds : ∀ text ∈ Mask.textsOfMembers document.metadata.toMapping, Yaml.FeedsLast text) :
    document.SplitsAtBoundary :=
  splitsAtBoundary_of_endsLine (Meta.endsLine_frontmatter? feeds)

/--
The source of a document splits where it was put together exactly if its
written metadata, if there is any, ends its last line.
-/
theorem splitsAtBoundary_iff (document : Document) :
    document.SplitsAtBoundary ↔ ∀ yaml ∈ document.metadata.frontmatter?, Text.EndsLine yaml := by
  constructor
  · intro splits yaml written
    rw [Meta.frontmatter?_eq] at written
    split at written
    · rename_i keys
      cases written
      exact Frontmatter.endsLine_of_split (splits.metadata keys)
    · cases written
  · exact splitsAtBoundary_of_endsLine

end Document

end UiMarkdown
