import Mathlib.Data.List.Infix
import Mathlib.Data.Option.Basic
import UiMarkdown.Markdown.Target

/-!
# What follows a definition

Every reader of a part of a definition leaves an end of its text, and so does
taking the definitions that start a text.
-/

namespace UiMarkdown

namespace Markdown

theorem suffix_of_angledUrl? {s url after : List Char}
    (found : angledUrl? s = some (url, after)) : after <:+ s := by
  fun_induction angledUrl? s generalizing url with
  | case1 c rest ih =>
      obtain ⟨⟨url', after'⟩, inner, same⟩ := Option.map_eq_some_iff.1 found
      cases same
      exact (ih inner).trans ⟨['\\', c], rfl⟩
  | case2 rest empty => cases found
  | case3 rest kept =>
      cases found
      exact List.suffix_cons _ _
  | case4 => cases found
  | case5 c rest _ _ _ ih =>
      obtain ⟨⟨url', after'⟩, inner, same⟩ := Option.map_eq_some_iff.1 found
      cases same
      exact (ih inner).trans (List.suffix_cons _ _)
  | case6 => cases found

theorem suffix_of_bareUrl? {depth : Nat} {s url after : List Char}
    (found : bareUrl? depth s = some (url, after)) : after <:+ s := by
  fun_induction bareUrl? depth s generalizing url
  all_goals first
    | cases found; done
    | cases found; exact List.suffix_rfl
    | rename_i ih
      obtain ⟨⟨url', after'⟩, inner, same⟩ := Option.map_eq_some_iff.1 found
      cases same
      first
        | exact (ih inner).trans (List.suffix_cons _ _)
        | exact (ih inner).trans ⟨[_, _], rfl⟩

theorem suffix_of_readUrl? {s url after : List Char}
    (found : readUrl? s = some (url, after)) : after <:+ s := by
  unfold readUrl? at found
  split at found
  · exact (suffix_of_angledUrl? found).trans (List.suffix_cons _ _)
  · split at found
    · cases found
    · exact suffix_of_bareUrl? found
  · cases found

theorem suffix_of_titleEnd? {opening : Option Char} {closing : Char} {escaped : Bool}
    {s title after : List Char}
    (found : titleEnd? opening closing escaped s = some (title, after)) : after <:+ s := by
  induction s generalizing escaped title with
  | nil => cases found
  | cons c rest ih =>
      rw [titleEnd?] at found
      have longer {title : List Char} (found : ((titleEnd? opening closing (c == '\\') rest).map
          fun inner => (c :: inner.1, inner.2)) = some (title, after)) :
          after <:+ c :: rest := by
        obtain ⟨⟨title', after'⟩, inner, same⟩ := Option.map_eq_some_iff.1 found
        cases same
        exact (ih inner).trans (List.suffix_cons _ _)
      dsimp only at found
      split at found
      · split at found
        · rcases (Option.orElse_eq_some _ _ _).1 found with found | ⟨-, found⟩
          · exact longer found
          · cases found
            exact List.suffix_cons _ _
        · cases found
          exact List.suffix_cons _ _
      · split at found
        · cases found
        · exact longer found

theorem suffix_of_readTitle? {s title after : List Char}
    (found : readTitle? s = some (title, after)) : after <:+ s := by
  unfold readTitle? at found
  split at found
  · exact (suffix_of_titleEnd? found).trans (List.suffix_cons _ _)
  · exact (suffix_of_titleEnd? found).trans (List.suffix_cons _ _)
  · exact (suffix_of_titleEnd? found).trans (List.suffix_cons _ _)
  · cases found

theorem suffix_of_labelEnd? {used : Nat} {s label after : List Char}
    (found : labelEnd? used s = some (label, after)) : after <:+ s := by
  fun_induction labelEnd? used s generalizing label
  all_goals first
    | cases found; done
    | cases found; exact List.suffix_cons _ _
    | rename_i ih
      obtain ⟨⟨label', after'⟩, inner, same⟩ := Option.map_eq_some_iff.1 found
      cases same
      first
        | exact (ih inner).trans (List.suffix_cons _ _)
        | exact (ih inner).trans ⟨[_, _], rfl⟩

theorem suffix_of_readLabel? {s label after : List Char}
    (found : readLabel? s = some (label, after)) : after <:+ s := by
  unfold readLabel? at found
  split at found
  · obtain ⟨⟨label', after'⟩, inner, same⟩ := Option.map_eq_some_iff.1 found
    cases same
    exact (suffix_of_labelEnd? inner).trans (List.suffix_cons _ _)
  · cases found

theorem suffix_skipSpaces (s : List Char) : skipSpaces s <:+ s :=
  List.dropWhile_suffix _

theorem suffix_skipSpacesAndLine (s : List Char) : skipSpacesAndLine s <:+ s := by
  rw [skipSpacesAndLine]
  split
  · rename_i rest feed
    have inside := suffix_skipSpaces s
    rw [feed] at inside
    exact (suffix_skipSpaces rest).trans ((List.suffix_cons _ _).trans inside)
  · exact suffix_skipSpaces s

theorem suffix_of_nextLine? {s rest : List Char} (found : nextLine? s = some rest) :
    rest <:+ s := by
  rw [nextLine?] at found
  split at found
  · cases found
    exact List.nil_suffix
  · rename_i after feed
    cases found
    have inside := suffix_skipSpaces s
    rw [feed] at inside
    exact (List.suffix_cons _ _).trans inside
  · cases found

theorem suffix_of_readDefinition? {s rest : List Char} {definition : List Char × Target}
    (found : readDefinition? s = some (definition, rest)) : rest <:+ s := by
  rw [readDefinition?] at found
  obtain ⟨⟨label, afterLabel⟩, isLabel, found⟩ := Option.bind_eq_some_iff.1 found
  dsimp only at found
  split at found
  · cases found
  · split at found
    · rename_i afterColon
      obtain ⟨⟨url, afterUrl⟩, isUrl, found⟩ := Option.bind_eq_some_iff.1 found
      have url := (suffix_of_readUrl? isUrl).trans ((suffix_skipSpacesAndLine afterColon).trans
        ((List.suffix_cons _ _).trans (suffix_of_readLabel? isLabel)))
      dsimp only at found
      split at found
      · rename_i title afterTitle isTitle
        obtain ⟨next, isNext, same⟩ := Option.bind_eq_some_iff.1 found
        cases same
        split at isTitle
        · rcases (Option.orElse_eq_some _ _ _).1 isNext with isNext | ⟨-, isNext⟩
          · exact (suffix_of_nextLine? isNext).trans ((suffix_of_readTitle? isTitle).trans
              ((suffix_skipSpacesAndLine afterUrl).trans url))
          · exact (suffix_of_nextLine? isNext).trans url
        · cases isTitle
      · obtain ⟨next, isNext, same⟩ := Option.bind_eq_some_iff.1 found
        cases same
        exact (suffix_of_nextLine? isNext).trans url
    · cases found

/-- Taking the definitions leaves an end of the text. -/
theorem suffix_takeDefinitions (definitions : Definitions) (s : List Char) :
    (takeDefinitions definitions s).2 <:+ s := by
  fun_induction takeDefinitions definitions s with
  | case1 definitions s label target rest read shorter ih =>
      exact ih.trans (suffix_of_readDefinition? read)
  | case2 => exact List.suffix_rfl
  | case3 => exact List.suffix_rfl

end Markdown

end UiMarkdown
