import UiMarkdown.Compile.Document

/-!
# The stages of compilation

A source compiles exactly when its metadata can be read, its body has nodes and
no query names another in a way of old.  The document is made of the metadata
and the nodes and of nothing else.
-/

namespace UiMarkdown

namespace Document

/-- A source compiles exactly when each stage has a result. -/
theorem compile_eq_ok_iff {options : CompileOptions} {source : List Char} {document : Document} :
    compile options source = .ok document ↔
      ∃ metadata ast, Meta.ofFrontmatter (Frontmatter.split source).1 = .ok metadata ∧
        Node.ofText options (Frontmatter.split source).2 source = .ok ast ∧
        Legacy.check? options.legacyAuthors metadata.queries = none ∧
        document = ofParts metadata ast := by
  rw [compile]
  obtain ⟨frontmatter, body⟩ := Frontmatter.split source
  constructor
  · intro compiled
    dsimp only at compiled
    cases read : Meta.ofFrontmatter frontmatter with
    | error error =>
        rw [read] at compiled
        cases compiled
    | ok metadata =>
        cases built : Node.ofText options body source with
        | error error =>
            rw [read, built] at compiled
            cases compiled
        | ok ast =>
            rw [read, built] at compiled
            cases legacy : Legacy.check? options.legacyAuthors metadata.queries with
            | some error =>
                simp [bind, Except.bind, legacy] at compiled
            | none =>
                simp only [bind, Except.bind, legacy] at compiled
                exact ⟨metadata, ast, rfl, rfl, legacy, (Except.ok.inj compiled).symm⟩
  · rintro ⟨metadata, ast, read, built, legacy, rfl⟩
    simp only [read, built, bind, Except.bind, legacy]
    rfl

end Document

end UiMarkdown
