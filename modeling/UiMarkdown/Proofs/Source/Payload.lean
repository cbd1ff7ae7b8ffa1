import UiMarkdown.Proofs.Mask.Restored
import UiMarkdown.Proofs.Source.RoundTrip
import UiMarkdown.Proofs.Text.Line
import UiMarkdown.Proofs.Text.Trim
import UiMarkdown.Proofs.Yaml.Event

/-!
# Payloads of a masked text

A directive is read from the masked text, and the spans are put back into its
payload.  Where its body has no span, this changes nothing unless a scalar
spells a token that the body does not: for that it has to be written with an
escape.
-/

namespace UiMarkdown

namespace Expression

theorem infix_of_unquoted? {s text : List Char} (found : unquoted? s = some text) :
    text <:+: s := by
  unfold unquoted? at found
  split at found
  · split at found
    · cases found
      exact (List.dropLast_prefix _).isInfix.trans (List.suffix_cons _ _).isInfix
    · cases found
  · cases found

end Expression

namespace Payload

variable {P : List Char → Prop}

/-- Key and text of a line stand in the line. -/
theorem made_of_readLine? {line : List Char} {member : String × Json}
    (infixes : ∀ text, text <:+: line → P text) (found : readLine? line = some member) :
    P member.1.toList ∧ Yaml.Made P member.2 := by
  rw [readLine?] at found
  split at found
  · rename_i key value cut
    obtain ⟨c, -, whole⟩ := Text.exists_of_cutAt? cut
    have inLine : value <:+: line := by
      rw [whole]
      exact ((List.suffix_cons c value).trans (List.suffix_append _ _)).isInfix
    dsimp only at found
    split at found
    · cases found
    · cases found
      refine ⟨?_, Yaml.made_str (infixes _ ?_)⟩
      · rw [String.toList_ofList]
        apply infixes
        rw [whole]
        exact (Text.infix_trim key).trans (List.prefix_append _ _).isInfix
      · cases quoted : Expression.unquoted? (Text.trim value) with
        | none => exact (Text.infix_trim value).trans inLine
        | some text =>
            exact ((Expression.infix_of_unquoted? quoted).trans (Text.infix_trim value)).trans inLine
  · cases found

/-- A payload is in order, and its texts and keys are those of Yaml or of lines, or all of it. -/
theorem made_ofBody {source : List Char}
    (yaml : ∀ value, Yaml.ofText? source = some value → Yaml.Made P value)
    (infixes : ∀ text, text <:+: source → P text) (text : P "text".toList) :
    Yaml.Made P (.obj (ofBody source)) := by
  have ofList (members : List (String × Json))
      (made : ∀ member ∈ members, P member.1.toList ∧ Yaml.Made P member.2) :
      Yaml.Made P (.obj (Object.ofList members)) := by
    refine ⟨Json.ordered_ofList (Json.orderedMembers_iff.2 fun member mem =>
      (made member mem).2.1), ?_⟩
    intro text mem
    rw [Mask.textsOf] at mem
    obtain ⟨member, inside, stands⟩ :=
      Mask.mem_textsOfMembers_iff.1 (Mask.mem_textsOfMembers_of_ofList mem)
    rcases stands with rfl | stands
    · exact (made member inside).1
    · exact (made member inside).2.2 text stands
  rw [ofBody]
  split
  · exact ofList [] (List.forall_mem_nil _)
  · split
    · rename_i members read
      exact yaml _ read
    · dsimp only
      split
      · apply ofList (ofWhole source)
        rw [ofWhole, List.forall_mem_singleton]
        exact ⟨text, Yaml.made_str (infixes _ (Text.infix_trim source))⟩
      · apply ofList
        intro member mem
        obtain ⟨line, isLine, found⟩ := List.mem_filterMap.1 mem
        exact made_of_readLine?
          (fun text inside => infixes text (inside.trans (Text.infix_of_mem_lines isLine))) found

end Payload

namespace Mask

/-- A token is a word that starts with the letter of a stem. -/
theorem HoldsToken.exists_word {mask : Mask} (fresh : mask.Fresh) {s : List Char}
    (holds : mask.HoldsToken s) :
    ∃ word, Text.IsWord word ∧ 'H' ∈ word ∧ word <:+: s ∧
      ∀ t, word <:+: t → mask.HoldsToken t := by
  obtain ⟨digits, nonempty, all, live, occurs⟩ := holds
  obtain ⟨growths, stem⟩ := fresh.stem
  obtain ⟨tail, shape, -, alphanum⟩ := exists_cons_of_digits growths all
  refine ⟨mask.stem ++ digits ++ [tokenEnd], ?_, ?_, occurs,
    fun t inside => ⟨digits, nonempty, all, live, inside⟩⟩
  · rw [stem, shape]
    exact List.forall_mem_cons.2 ⟨by decide, alphanum⟩
  · rw [stem, shape]
    exact List.mem_cons_self

end Mask

namespace Body

/-- What is put back into a payload changes it exactly when it holds a live token. -/
theorem payload_eq_ofBody_iff {body : Body} (fresh : body.mask.Fresh) (source : List Char) :
    body.payload source = Payload.ofBody source ↔
      ∀ text ∈ Mask.textsOfMembers (Payload.ofBody source), ¬ body.mask.HoldsToken text := by
  have ordered : (Json.obj (Payload.ofBody source)).Ordered :=
    (Payload.made_ofBody (P := fun _ => True)
      (fun _ read => Yaml.made_of_ofText? (fun _ _ _ _ _ _ => trivial) read)
      (fun _ _ => trivial) trivial).1
  have same := fresh.restoreJson_eq_self_iff ordered
  rwa [Mask.restoreJson, Json.obj.injEq, Mask.textsOf] at same

/-- Without a backslash, a body without tokens has a payload without tokens. -/
theorem not_holdsToken_ofBody {mask : Mask} (fresh : mask.Fresh) {source : List Char}
    (spanless : ¬ mask.HoldsToken source) (plain : '\\' ∉ source) :
    ∀ text ∈ Mask.textsOfMembers (Payload.ofBody source), ¬ mask.HoldsToken text := by
  have made : Yaml.Made (fun text => ¬ mask.HoldsToken text) (.obj (Payload.ofBody source)) := by
    have within {text : List Char} (words : Text.WordsIn source text) : ¬ mask.HoldsToken text := by
      intro holds
      obtain ⟨word, isWord, -, occurs, token⟩ := holds.exists_word fresh
      exact spanless (token source (words word isWord occurs))
    refine Payload.made_ofBody ?_ (fun text inside => within (.of_isInfix inside)) ?_
    · intro value read
      obtain ⟨ordered, words⟩ := Yaml.words_of_ofText? plain read
      exact ⟨ordered, fun text mem => within (words text mem)⟩
    · intro holds
      obtain ⟨word, -, letter, occurs, -⟩ := holds.exists_word fresh
      exact absurd (occurs.subset letter) (by decide)
  have texts := made.2
  rwa [Mask.textsOf] at texts

/--
In the body of any text, the payload of a directive is what its own body means,
exactly when that holds no live token.  If the directive has no span and no
backslash, this is so whatever the expressions around it are.
-/
theorem payload_ofText (x document source : List Char) :
    ((ofText x document).payload source = Payload.ofBody source ↔
      ∀ text ∈ Mask.textsOfMembers (Payload.ofBody source),
        ¬ (ofText x document).mask.HoldsToken text) ∧
    (¬ (ofText x document).mask.HoldsToken source → '\\' ∉ source →
      (ofText x document).payload source = Payload.ofBody source) := by
  have fresh : (ofText x document).mask.Fresh := Mask.fresh_ofText x
  refine ⟨payload_eq_ofBody_iff fresh source, fun spanless plain => ?_⟩
  exact (payload_eq_ofBody_iff fresh source).2 (not_holdsToken_ofBody fresh spanless plain)

/-- A directive without expression and backslash, after an expression. -/
theorem payload_ofText_button :
    let body := ofText "\x7b\x7b a \x7d\x7d\n\n```button\ntext: HNTPL\n```\n".toList []
    ¬ body.mask.HoldsToken "text: HNTPL\n".toList ∧ '\\' ∉ "text: HNTPL\n".toList ∧
      body.payload "text: HNTPL\n".toList = Payload.ofBody "text: HNTPL\n".toList := by
  intro body
  have spanless : ¬ body.mask.HoldsToken "text: HNTPL\n".toList := by
    intro holds
    obtain ⟨digits, -, -, -, occurs⟩ := holds
    have stem : body.mask.stem <:+: "text: HNTPL\n".toList := by
      rw [List.append_assoc] at occurs
      exact (List.prefix_append _ _).isInfix.trans occurs
    revert stem
    decide +kernel
  exact ⟨spanless, by decide, (payload_ofText _ [] _).2 spanless (by decide)⟩

/-- A scalar with an escape can spell the token of an expression that stands elsewhere. -/
theorem payload_ofText_fails_of_escape :
    let source := "text: \"\\x48NTPL0Q\"\n".toList
    let text := "```button\n".toList ++ source ++ "```\n\n\x7b\x7b a \x7d\x7d\n".toList
    'H' ∉ source ∧ Payload.ofBody source = [("text", .str "HNTPL0Q")] ∧
      ∃ more, Node.ofText {} text text =
        .ok (.leaf "n1" .button [("text", .str "\x7b\x7b a \x7d\x7d")] :: more) := by
  intro source text
  refine ⟨by decide, by decide +kernel, ((Node.ofText {} text text).toOption.getD []).drop 1, ?_⟩
  decide +kernel

end Body

end UiMarkdown
