import UiMarkdown.Proofs.Text.Words
import UiMarkdown.Source.Directive
import UiMarkdown.Source.Layout

/-!
# Infos that come back

The info that is written for a code sample has the words of the one that was
read, so it names no construct either, and it has the same language and further
info.  The infos that are written for all other fences name what they stand for.
-/

namespace UiMarkdown

namespace CodeInfo

/-- The info of a code sample is one word, or a word, white space and more. -/
theorem ofInfo_cases (info : List Char) :
    ((∀ c ∈ Text.trim info, Text.isBlank c = false) ∧
      ofInfo info = ⟨String.ofList (Text.trim info), none⟩) ∨
    ∃ lang b more, Text.trim info = lang ++ b :: more ∧
      (∀ c ∈ lang, Text.isBlank c = false) ∧ Text.isBlank b = true ∧ Text.trim more ≠ [] ∧
      ofInfo info = ⟨String.ofList lang, some (String.ofList (Text.trim more))⟩ := by
  rw [ofInfo]
  split
  · rename_i lang more cut
    obtain ⟨b, blank, whole⟩ := Text.exists_of_cutAt? cut
    have letters := Text.not_of_mem_of_cutAt? cut
    refine .inr ⟨lang, b, more, whole, letters, blank, ?_⟩
    have kept : Text.trim more ≠ [] := by
      intro gone
      -- the trimmed info would end in white space
      have ends := Text.trimEnd_trim info
      have blanks : (b :: more).all Text.isBlank = true := by
        rw [List.all_cons, blank, Bool.true_and]
        exact Text.allBlank_of_trim_eq_nil gone
      rw [whole, Text.trimEnd, Text.dropEnd_append blanks, ← Text.trimEnd,
        Text.trimEnd_eq_self_of_forall letters] at ends
      simp at ends
    refine ⟨kept, ?_⟩
    rw [nonempty?, if_neg (by rwa [List.isEmpty_iff])]
    rfl
  · rename_i uncut
    exact .inl ⟨Text.cutAt?_eq_none_iff.1 uncut, rfl⟩

theorem toInfo_some (lang extra : List Char) :
    toInfo ⟨String.ofList lang, some (String.ofList extra)⟩ = lang ++ ' ' :: extra := by
  simp [toInfo]

/-- The written info has the words of the one that was read. -/
theorem words_toInfo_ofInfo (info : List Char) :
    Text.words (ofInfo info).toInfo = Text.words info := by
  rcases ofInfo_cases info with ⟨-, shape⟩ | ⟨lang, b, more, whole, -, blank, -, shape⟩
  · rw [shape, toInfo, String.toList_ofList, Text.words_trim]
  · rw [shape, toInfo_some,
      Text.words_append_blank (by decide), Text.words_trim, ← Text.words_trim info, whole,
      Text.words_append_blank blank]

/-- The written info has the language and the further info of the one that was read. -/
theorem ofInfo_toInfo_ofInfo (info : List Char) : ofInfo (ofInfo info).toInfo = ofInfo info := by
  rcases ofInfo_cases info with
    ⟨letters, shape⟩ | ⟨lang, b, more, whole, letters, blank, kept, shape⟩
  · rw [shape, toInfo, String.toList_ofList, ofInfo, Text.trim_trim,
      Text.cutAt?_eq_none_iff.2 letters]
  · rw [shape, toInfo_some]
    have trimmed : Text.trim (lang ++ ' ' :: Text.trim more) = lang ++ ' ' :: Text.trim more := by
      have ends : Text.trimEnd (lang ++ ' ' :: Text.trim more) = lang ++ ' ' :: Text.trim more := by
        rw [← List.singleton_append, ← List.append_assoc, Text.trimEnd_append, Text.trimEnd_trim]
        rwa [Text.trimEnd_trim]
      cases lang with
      | nil =>
          rw [Text.isBlank_of_trim_eq_cons whole] at blank
          cases blank
      | cons c lang =>
          exact Text.trim_eq_self (letters c List.mem_cons_self) ends
    rw [ofInfo, trimmed, Text.cutAt?_append _ letters (by decide)]
    dsimp only
    rw [Text.trim_trim, nonempty?, if_neg (by rwa [List.isEmpty_iff])]
    rfl

end CodeInfo

namespace Directive

/-- An info that names no construct is that of a code sample. -/
theorem ofInfo_eq_code_iff {info : List Char} {code : CodeInfo} :
    ofInfo info = .code code ↔
      names.lookup (String.ofList (normalizeInfo info)) = none ∧ code = CodeInfo.ofInfo info := by
  rw [ofInfo]
  cases found : names.lookup (String.ofList (normalizeInfo info)) with
  | none => simp [eq_comm]
  | some directive =>
      have named : ∀ entry ∈ names, entry.2 ≠ .code code := by
        simp [names]
      have mem : (String.ofList (normalizeInfo info), directive) ∈ names := by
        obtain ⟨before, after, split, -⟩ := List.lookup_eq_some_iff.1 found
        rw [split]
        exact List.mem_append_right _ List.mem_cons_self
      simp only [reduceCtorEq, false_and, iff_false]
      exact named _ mem

/-- The info that is written for a code sample is read as the same code sample. -/
theorem ofInfo_toInfo {info : List Char} {code : CodeInfo} (read : ofInfo info = .code code) :
    ofInfo code.toInfo = .code code := by
  rw [ofInfo_eq_code_iff] at read ⊢
  obtain ⟨unnamed, rfl⟩ := read
  rw [normalizeInfo, CodeInfo.words_toInfo_ofInfo, ← normalizeInfo]
  exact ⟨unnamed, (CodeInfo.ofInfo_toInfo_ofInfo info).symm⟩

theorem ofInfo_tag (kind : Leaf) : ofInfo kind.tag.toList = .leaf kind := by
  cases kind <;> decide +kernel

theorem ofInfo_openTag (kind : Container) : ofInfo kind.openTag.toList = .opening kind := by
  cases kind <;> decide +kernel

theorem ofInfo_closeTag (kind : Container) : ofInfo kind.closeTag.toList = .closing kind := by
  cases kind <;> decide +kernel

end Directive

end UiMarkdown
