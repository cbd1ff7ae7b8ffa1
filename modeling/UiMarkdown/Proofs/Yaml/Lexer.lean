import UiMarkdown.Proofs.Yaml.Scalar
import UiMarkdown.Yaml.Token.Lexer

/-!
# Words of the scalars among tokens

Reading tokens moves on in the text and never back, and without a backslash in
the text, every run of letters and digits in a scalar that is read is one of
the text.
-/

namespace UiMarkdown

namespace Yaml

open Text (WordsIn)

namespace Cursor

variable {cursor cursor' : Cursor}

/-! ## Tags, names and directives -/

theorem suffix_of_readHandle? {directive : Bool} {handle : List Char}
    (found : cursor.readHandle? directive = some (handle, cursor')) :
    cursor'.rest <:+ cursor.rest := by
  rw [readHandle?] at found
  dsimp only [takeWhile] at found
  have word := (suffix_skipWhile cursor.skip isWordChar).trans (suffix_skip cursor 1)
  split at found
  · cases found
  · split at found
    · cases found
      exact (suffix_skip _ 1).trans word
    · split at found
      · cases found
      · cases found
        exact word

theorem suffix_of_readByte? {byte : Nat} (found : cursor.readByte? = some (byte, cursor')) :
    cursor'.rest <:+ cursor.rest := by
  rw [readByte?] at found
  split at found
  · obtain ⟨n, -, same⟩ := Option.map_eq_some_iff.1 found
    cases same
    exact suffix_skip cursor 3
  · cases found

theorem suffix_of_readContinuation? {count value value' : Nat}
    (found : readContinuation? count value cursor = some (value', cursor')) :
    cursor'.rest <:+ cursor.rest := by
  induction count generalizing value cursor with
  | zero =>
      cases found
      exact List.suffix_rfl
  | succ count ih =>
      rw [readContinuation?] at found
      split at found
      · rename_i byte next isByte
        split at found
        · exact (ih found).trans (suffix_of_readByte? isByte)
        · cases found
      · cases found

theorem suffix_of_readBytes? {c : Char} (found : cursor.readBytes? = some (c, cursor')) :
    cursor'.rest <:+ cursor.rest := by
  have finished {value : Nat} {last : Cursor} (suffix : last.rest <:+ cursor.rest)
      (found : (if value.isValidChar then some (Char.ofNat value, last) else none) =
        some (c, cursor')) : cursor'.rest <:+ cursor.rest := by
    split at found
    · cases found
      exact suffix
    · cases found
  rw [readBytes?] at found
  obtain ⟨⟨byte, next⟩, isByte, found⟩ := Option.bind_eq_some_iff.1 found
  have first := suffix_of_readByte? isByte
  dsimp only at found
  split at found
  · exact finished first found
  · split at found
    · obtain ⟨⟨value, last⟩, continued, found⟩ := Option.bind_eq_some_iff.1 found
      exact finished ((suffix_of_readContinuation? continued).trans first) found
    · split at found
      · obtain ⟨⟨value, last⟩, continued, found⟩ := Option.bind_eq_some_iff.1 found
        exact finished ((suffix_of_readContinuation? continued).trans first) found
      · split at found
        · obtain ⟨⟨value, last⟩, continued, found⟩ := Option.bind_eq_some_iff.1 found
          exact finished ((suffix_of_readContinuation? continued).trans first) found
        · cases found

theorem suffix_of_readTagText? {verbatim : Bool} {fuel : Nat} {text text' : List Char}
    (found : readTagText? verbatim fuel text cursor = some (text', cursor')) :
    cursor'.rest <:+ cursor.rest := by
  induction fuel generalizing text cursor with
  | zero =>
      cases found
      exact List.suffix_rfl
  | succ fuel ih =>
      rw [readTagText?] at found
      split at found
      · split at found
        · rename_i isChar
          exact (ih found).trans (suffix_of_readBytes? isChar)
        · cases found
      · split at found
        · split at found
          · exact (ih found).trans (suffix_skip _ 1)
          · cases found
            exact List.suffix_rfl
        · cases found
          exact List.suffix_rfl

theorem suffix_of_readSuffix? {verbatim : Bool} {head text : List Char}
    (found : cursor.readSuffix? verbatim head = some (text, cursor')) :
    cursor'.rest <:+ cursor.rest := by
  rw [readSuffix?] at found
  split at found
  · rename_i isText
    split at found
    · cases found
    · cases found
      exact suffix_of_readTagText? isText
  · cases found

/-- Reading a tag moves on, and gives a tag. -/
theorem suffix_of_readTag? {flow : Bool} {token : Token}
    (found : cursor.readTag? flow = some (token, cursor')) :
    cursor'.rest <:+ cursor.rest ∧ ∃ handle suffix, token = .tag handle suffix := by
  have finished {handle suffix : List Char} {next : Cursor}
      (moved : next.rest <:+ cursor.rest)
      (found : (if (flow && next.isAt ',') || next.isGap then
        some (Token.tag handle suffix, next) else none) = some (token, cursor')) :
      cursor'.rest <:+ cursor.rest ∧ ∃ handle suffix, token = .tag handle suffix := by
    split at found
    · cases found
      exact ⟨moved, _, _, rfl⟩
    · cases found
  rw [readTag?] at found
  split at found
  · obtain ⟨⟨suffix, last⟩, isSuffix, found⟩ := Option.bind_eq_some_iff.1 found
    dsimp only at found
    split at found
    · exact finished ((suffix_skip last 1).trans ((suffix_of_readSuffix? isSuffix).trans
        (suffix_skip cursor 2))) found
    · cases found
  · obtain ⟨⟨handle, next⟩, isHandle, found⟩ := Option.bind_eq_some_iff.1 found
    dsimp only at found
    split at found
    · obtain ⟨⟨suffix, last⟩, isSuffix, found⟩ := Option.bind_eq_some_iff.1 found
      exact finished ((suffix_of_readSuffix? isSuffix).trans (suffix_of_readHandle? isHandle)) found
    · obtain ⟨⟨suffix, last⟩, isSuffix, found⟩ := Option.bind_eq_some_iff.1 found
      have moved := (suffix_of_readSuffix? isSuffix).trans (suffix_of_readHandle? isHandle)
      cases empty : suffix.isEmpty with
      | true => exact finished moved (by simpa [empty] using found)
      | false => exact finished moved (by simpa [empty] using found)

theorem suffix_of_readName? {name : List Char}
    (found : cursor.readName? = some (name, cursor')) : cursor'.rest <:+ cursor.rest := by
  rw [readName?] at found
  dsimp only [takeWhile] at found
  split at found
  · cases found
    exact suffix_skipWhile cursor isWordChar
  · cases found

theorem suffix_of_readVersionNumber? {n : Nat}
    (found : cursor.readVersionNumber? = some (n, cursor')) : cursor'.rest <:+ cursor.rest := by
  rw [readVersionNumber?] at found
  dsimp only [takeWhile] at found
  split at found
  · cases found
  · cases found
    exact suffix_skipWhile cursor Char.isDigit

theorem suffix_of_readVersion? {token : Token}
    (found : cursor.readVersion? = some (token, cursor')) :
    cursor'.rest <:+ cursor.rest ∧ ∃ major minor, token = .version major minor := by
  rw [readVersion?] at found
  obtain ⟨⟨major, next⟩, isMajor, found⟩ := Option.bind_eq_some_iff.1 found
  dsimp only at found
  split at found
  · obtain ⟨⟨minor, last⟩, isMinor, found⟩ := Option.bind_eq_some_iff.1 found
    cases found
    exact ⟨((suffix_of_readVersionNumber? isMinor).trans (suffix_skip next 1)).trans
      ((suffix_of_readVersionNumber? isMajor).trans (suffix_skipWhile cursor _)), _, _, rfl⟩
  · cases found

theorem suffix_of_readTagHandle? {token : Token}
    (found : cursor.readTagHandle? = some (token, cursor')) :
    cursor'.rest <:+ cursor.rest ∧ ∃ handle expansion, token = .tagHandle handle expansion := by
  rw [readTagHandle?] at found
  obtain ⟨⟨handle, next⟩, isHandle, found⟩ := Option.bind_eq_some_iff.1 found
  dsimp only at found
  split at found
  · obtain ⟨⟨expansion, last⟩, isExpansion, found⟩ := Option.bind_eq_some_iff.1 found
    dsimp only at found
    split at found
    · cases found
      exact ⟨((suffix_of_readSuffix? isExpansion).trans (suffix_skipWhile next _)).trans
        ((suffix_of_readHandle? isHandle).trans (suffix_skipWhile cursor _)), _, _, rfl⟩
    · cases found
  · cases found

theorem suffix_of_readDirective? {token : Token}
    (found : cursor.readDirective? = some (token, cursor')) :
    cursor'.rest <:+ cursor.rest ∧ ((∃ major minor, token = .version major minor) ∨
      ∃ handle expansion, token = .tagHandle handle expansion) := by
  have finished {token' : Token} {next : Cursor} (moved : next.rest <:+ cursor.rest)
      (isToken : (∃ major minor, token' = .version major minor) ∨
        ∃ handle expansion, token' = .tagHandle handle expansion)
      (found : (if (if (next.skipWhile Text.isSpaceOrTab).isAt '#' then
            (next.skipWhile Text.isSpaceOrTab).skipWhile (!isBreak ·)
            else next.skipWhile Text.isSpaceOrTab).isLineEnd then
          some (token', (if (next.skipWhile Text.isSpaceOrTab).isAt '#' then
            (next.skipWhile Text.isSpaceOrTab).skipWhile (!isBreak ·)
            else next.skipWhile Text.isSpaceOrTab).skipBreak)
          else none) = some (token, cursor')) :
      cursor'.rest <:+ cursor.rest ∧ ((∃ major minor, token = .version major minor) ∨
        ∃ handle expansion, token = .tagHandle handle expansion) := by
    have ended := (suffix_skipComment (next.skipWhile Text.isSpaceOrTab)).trans
      ((suffix_skipWhile next _).trans moved)
    generalize (if (next.skipWhile Text.isSpaceOrTab).isAt '#' then
      (next.skipWhile Text.isSpaceOrTab).skipWhile (!isBreak ·)
      else next.skipWhile Text.isSpaceOrTab) = last at found ended
    split at found
    · cases found
      exact ⟨(suffix_skipBreak _).trans ended, isToken⟩
    · cases found
  rw [readDirective?] at found
  dsimp only [takeWhile] at found
  have name := (suffix_skipWhile cursor.skip isWordChar).trans (suffix_skip cursor 1)
  split at found
  · cases found
  · split at found
    · obtain ⟨⟨token', next⟩, isVersion, found⟩ := Option.bind_eq_some_iff.1 found
      obtain ⟨suffix, isToken⟩ := suffix_of_readVersion? isVersion
      exact finished (suffix.trans name) (.inl isToken) found
    · split at found
      · obtain ⟨⟨token', next⟩, isHandle, found⟩ := Option.bind_eq_some_iff.1 found
        obtain ⟨suffix, isToken⟩ := suffix_of_readTagHandle? isHandle
        exact finished (suffix.trans name) (.inr isToken) found
      · cases found

end Cursor

/-! ## Tokens -/

def Token.WordsIn (s : List Char) : Token → Prop
  | .scalar text _ => Text.WordsIn s text
  | _ => True

namespace Lexer

variable {s : List Char} {lexer lexer' : Lexer}

/-- What is left is the end of a text, and the words of the scalars read stand in it. -/
structure Sound (s : List Char) (lexer : Lexer) : Prop where
  left : lexer.cursor.rest <:+ s
  words : ∀ token ∈ lexer.tokens, token.WordsIn s

theorem Sound.push {token : Token} (sound : lexer.Sound s) (words : token.WordsIn s) :
    (lexer.push token).Sound s := by
  refine ⟨sound.left, fun token' mem => ?_⟩
  rcases Array.mem_push.1 mem with before | rfl
  · exact sound.words token' before
  · exact words

theorem Sound.moveTo {cursor : Cursor} (sound : lexer.Sound s)
    (left : cursor.rest <:+ s) : (lexer.moveTo cursor).Sound s :=
  ⟨left, sound.words⟩

theorem Sound.allowKey {allowed : Bool} (sound : lexer.Sound s) :
    (lexer.allowKey allowed).Sound s :=
  ⟨sound.left, sound.words⟩

theorem Sound.punctuate {token : Token} {size : Nat} (sound : lexer.Sound s)
    (words : token.WordsIn s) : (lexer.punctuate token size).Sound s :=
  (sound.push words).moveTo ((Cursor.suffix_skip lexer.cursor size).trans sound.left)

theorem Sound.insert {token : Token} {position : Nat} (sound : lexer.Sound s)
    (words : token.WordsIn s) :
    ∀ token' ∈ lexer.tokens.insertIdxIfInBounds position token, token'.WordsIn s := by
  intro token' mem
  rw [Array.insertIdxIfInBounds] at mem
  split at mem
  · rcases Array.mem_insertIdx.1 mem with rfl | before
    · exact words
    · exact sound.words token' before
  · exact sound.words token' mem

theorem Sound.openBlock {token : Token} {column position : Nat} (sound : lexer.Sound s)
    (words : token.WordsIn s) : (lexer.openBlock column position token).Sound s := by
  rw [Lexer.openBlock]
  split
  · exact ⟨sound.left, sound.insert words⟩
  · exact sound

theorem Sound.closeBlocks {column : Int} (sound : lexer.Sound s) :
    (lexer.closeBlocks column).Sound s := by
  have close : ∀ (outer : List Int) (lexer : Lexer), lexer.Sound s →
      (closeBlocks.go column outer lexer).Sound s := by
    intro outer
    induction outer with
    | nil => exact fun _ sound => sound
    | cons indent outer ih =>
        intro lexer sound
        rw [closeBlocks.go]
        split
        · exact ih _ (Sound.push ⟨sound.left, sound.words⟩ trivial)
        · exact sound
  rw [Lexer.closeBlocks]
  split
  · exact sound
  · exact close _ lexer sound

theorem Sound.skipToToken {fuel : Nat} (sound : lexer.Sound s) :
    (skipToToken fuel lexer).Sound s := by
  induction fuel generalizing lexer with
  | zero => exact sound
  | succ fuel ih =>
      rw [Lexer.skipToToken]
      have skipped : ((if lexer.cursor.column == 0 && lexer.cursor.isAt '\uFEFF' then
          lexer.cursor.skip else lexer.cursor).skipWhile fun c =>
            c == ' ' || ((lexer.inFlow || !lexer.keyAllowed) && c == '\t')).rest <:+
          lexer.cursor.rest := by
        refine (Cursor.suffix_skipWhile _ _).trans ?_
        split
        · exact Cursor.suffix_skip _ 1
        · exact List.suffix_rfl
      have commented := ((Cursor.suffix_skipComment _).trans skipped).trans sound.left
      refine iteInduction (motive := Lexer.Sound s) (fun _ => ?_) fun _ => ?_
      · exact ih ⟨(Cursor.suffix_skipBreak _).trans commented, sound.words⟩
      · exact sound.moveTo commented

theorem Sound.of_dropStaleKeys? (sound : lexer.Sound s)
    (found : lexer.dropStaleKeys? = some lexer') : lexer'.Sound s := by
  rw [dropStaleKeys?] at found
  obtain ⟨key, -, found⟩ := Option.bind_eq_some_iff.1 found
  obtain ⟨outerKeys, -, found⟩ := Option.bind_eq_some_iff.1 found
  cases found
  exact ⟨sound.left, sound.words⟩

theorem Sound.of_forgetKey? (sound : lexer.Sound s) (found : lexer.forgetKey? = some lexer') :
    lexer'.Sound s := by
  rw [forgetKey?] at found
  split at found
  · split at found
    · cases found
    · cases found
      exact ⟨sound.left, sound.words⟩
  · cases found
    exact sound

theorem Sound.of_rememberKey? (sound : lexer.Sound s)
    (found : lexer.rememberKey? = some lexer') : lexer'.Sound s := by
  rw [rememberKey?] at found
  split at found
  · obtain ⟨forgotten, isForgotten, rfl⟩ := Option.map_eq_some_iff.1 found
    exact ⟨(sound.of_forgetKey? isForgotten).left, (sound.of_forgetKey? isForgotten).words⟩
  · cases found
    exact sound

/-! ### One token -/

theorem Sound.of_documentMarker? {token : Token} (sound : lexer.Sound s)
    (words : token.WordsIn s) (found : lexer.documentMarker? token = some lexer') :
    lexer'.Sound s := by
  obtain ⟨forgotten, isForgotten, rfl⟩ := Option.map_eq_some_iff.1 found
  exact (sound.closeBlocks.of_forgetKey? isForgotten).allowKey.punctuate words

theorem Sound.of_directive? (sound : lexer.Sound s) (found : lexer.directive? = some lexer') :
    lexer'.Sound s := by
  obtain ⟨forgotten, isForgotten, found⟩ := Option.bind_eq_some_iff.1 found
  obtain ⟨⟨token, cursor⟩, isDirective, found⟩ := Option.bind_eq_some_iff.1 found
  cases found
  obtain ⟨suffix, isToken⟩ := Cursor.suffix_of_readDirective? isDirective
  have same := sound.closeBlocks.of_forgetKey? isForgotten
  refine (same.allowKey.push ?_).moveTo (suffix.trans same.left)
  rcases isToken with ⟨major, minor, rfl⟩ | ⟨handle, expansion, rfl⟩
  · trivial
  · trivial

theorem Sound.of_openFlow? {token : Token} (sound : lexer.Sound s) (words : token.WordsIn s)
    (found : lexer.openFlow? token = some lexer') : lexer'.Sound s := by
  obtain ⟨remembered, isRemembered, rfl⟩ := Option.map_eq_some_iff.1 found
  have same := sound.of_rememberKey? isRemembered
  exact Sound.punctuate ⟨same.left, same.words⟩ words

theorem Sound.of_closeFlow? {token : Token} (sound : lexer.Sound s) (words : token.WordsIn s)
    (found : lexer.closeFlow? token = some lexer') : lexer'.Sound s := by
  obtain ⟨forgotten, isForgotten, rfl⟩ := Option.map_eq_some_iff.1 found
  have same := sound.of_forgetKey? isForgotten
  refine Sound.punctuate (Sound.allowKey ?_) words
  split
  · exact ⟨same.left, same.words⟩
  · exact same

theorem Sound.of_flowEntry? (sound : lexer.Sound s) (found : lexer.flowEntry? = some lexer') :
    lexer'.Sound s := by
  obtain ⟨forgotten, isForgotten, rfl⟩ := Option.map_eq_some_iff.1 found
  exact (sound.of_forgetKey? isForgotten).allowKey.punctuate (by trivial)

theorem Sound.of_blockEntry? (sound : lexer.Sound s) (found : lexer.blockEntry? = some lexer') :
    lexer'.Sound s := by
  rw [ blockEntry?] at found
  split at found
  · cases found
  · obtain ⟨forgotten, isForgotten, rfl⟩ := Option.map_eq_some_iff.1 found
    exact ((sound.openBlock (by trivial)).of_forgetKey? isForgotten).allowKey.punctuate (by trivial)

theorem Sound.of_explicitKey? (sound : lexer.Sound s)
    (found : lexer.explicitKey? = some lexer') : lexer'.Sound s := by
  rw [explicitKey?] at found
  split at found
  · cases found
  · obtain ⟨forgotten, isForgotten, rfl⟩ := Option.map_eq_some_iff.1 found
    exact ((sound.openBlock (by trivial)).of_forgetKey? isForgotten).allowKey.punctuate (by trivial)

theorem Sound.of_value? (sound : lexer.Sound s) (found : lexer.value? = some lexer') :
    lexer'.Sound s := by
  rw [value?] at found
  split at found
  · rename_i key _
    cases found
    have inserted : ({ lexer with
        key := none
        keyAllowed := false
        tokens := lexer.tokens.insertIdxIfInBounds key.position .key } : Lexer).Sound s :=
      ⟨sound.left, sound.insert trivial⟩
    exact (inserted.openBlock (by trivial)).punctuate (by trivial)
  · split at found
    · cases found
    · cases found
      exact (sound.openBlock (by trivial)).allowKey.punctuate (by trivial)

theorem Sound.of_name? {token : List Char → Token} (sound : lexer.Sound s)
    (words : ∀ name, (token name).WordsIn s) (found : lexer.name? token = some lexer') :
    lexer'.Sound s := by
  obtain ⟨remembered, isRemembered, found⟩ := Option.bind_eq_some_iff.1 found
  obtain ⟨⟨name, cursor⟩, isName, found⟩ := Option.bind_eq_some_iff.1 found
  cases found
  have same := sound.of_rememberKey? isRemembered
  exact (same.allowKey.push (words name)).moveTo
    (((Cursor.suffix_of_readName? isName).trans (Cursor.suffix_skip _ 1)).trans same.left)

theorem Sound.of_tag? (sound : lexer.Sound s) (found : lexer.tag? = some lexer') :
    lexer'.Sound s := by
  obtain ⟨remembered, isRemembered, found⟩ := Option.bind_eq_some_iff.1 found
  obtain ⟨⟨token, cursor⟩, isTag, found⟩ := Option.bind_eq_some_iff.1 found
  cases found
  obtain ⟨suffix, handle, text, rfl⟩ := Cursor.suffix_of_readTag? isTag
  have same := sound.of_rememberKey? isRemembered
  exact (same.allowKey.push (by trivial)).moveTo (suffix.trans same.left)

theorem Sound.of_block? {literal : Bool} (sound : lexer.Sound s)
    (found : lexer.block? literal = some lexer') : lexer'.Sound s := by
  obtain ⟨forgotten, isForgotten, found⟩ := Option.bind_eq_some_iff.1 found
  obtain ⟨⟨text, cursor⟩, isBlock, found⟩ := Option.bind_eq_some_iff.1 found
  cases found
  have same := sound.of_forgetKey? isForgotten
  obtain ⟨words, suffix⟩ :=
    Cursor.words_of_block? ((Cursor.suffix_skip _ 1).trans same.left) isBlock
  exact (same.allowKey.push (by exact words)).moveTo suffix

theorem Sound.of_quoted? {single : Bool} (plain : '\\' ∉ s) (sound : lexer.Sound s)
    (found : lexer.quoted? single = some lexer') : lexer'.Sound s := by
  obtain ⟨remembered, isRemembered, found⟩ := Option.bind_eq_some_iff.1 found
  obtain ⟨⟨text, cursor⟩, isQuoted, found⟩ := Option.bind_eq_some_iff.1 found
  cases found
  have same := sound.of_rememberKey? isRemembered
  obtain ⟨words, suffix⟩ := Cursor.words_of_quoted? plain
    (.start ((Cursor.suffix_skip _ 1).trans same.left)) isQuoted
  exact (same.allowKey.push (by exact words)).moveTo suffix

theorem Sound.of_plain? (sound : lexer.Sound s) (found : lexer.plain? = some lexer') :
    lexer'.Sound s := by
  obtain ⟨remembered, isRemembered, found⟩ := Option.bind_eq_some_iff.1 found
  obtain ⟨⟨text, broken, cursor⟩, isPlain, found⟩ := Option.bind_eq_some_iff.1 found
  cases found
  have same := sound.of_rememberKey? isRemembered
  obtain ⟨words, suffix⟩ := Cursor.words_of_plain? (.of_read (.start same.left)) isPlain
  exact (same.allowKey.push (by exact words)).moveTo suffix

/-- Reading one token of a text without a backslash. -/
theorem Sound.of_token? {c : Char} (plain : '\\' ∉ s) (sound : lexer.Sound s)
    (found : lexer.token? c = some lexer') : lexer'.Sound s := by
  have either {p : Bool} {a b : Option Lexer} (found : (if p then a else b) = some lexer')
      (first : a = some lexer' → lexer'.Sound s) (second : b = some lexer' → lexer'.Sound s) :
      lexer'.Sound s := by
    split at found
    · exact first found
    · exact second found
  refine either found sound.of_directive? fun found => ?_
  refine either found (sound.of_documentMarker? trivial) fun found => ?_
  refine either found (sound.of_documentMarker? trivial) fun found => ?_
  refine either found (sound.of_openFlow? trivial) fun found => ?_
  refine either found (sound.of_openFlow? trivial) fun found => ?_
  refine either found (sound.of_closeFlow? trivial) fun found => ?_
  refine either found (sound.of_closeFlow? trivial) fun found => ?_
  refine either found sound.of_flowEntry? fun found => ?_
  refine either found sound.of_blockEntry? fun found => ?_
  refine either found sound.of_explicitKey? fun found => ?_
  refine either found sound.of_value? fun found => ?_
  refine either found (sound.of_name? fun _ => trivial) fun found => ?_
  refine either found (sound.of_name? fun _ => trivial) fun found => ?_
  refine either found sound.of_tag? fun found => ?_
  refine either found sound.of_block? fun found => ?_
  refine either found sound.of_block? fun found => ?_
  refine either found (sound.of_quoted? plain) fun found => ?_
  refine either found (sound.of_quoted? plain) fun found => ?_
  refine either found sound.of_plain? fun found => ?_
  cases found

theorem words_of_run? {fuel : Nat} {tokens : List Token} (plain : '\\' ∉ s)
    (sound : lexer.Sound s) (found : run? fuel lexer = some tokens) :
    ∀ token ∈ tokens, token.WordsIn s := by
  induction fuel generalizing lexer with
  | zero => cases found
  | succ fuel ih =>
      rw [run?] at found
      split at found
      · cases found
      · rename_i started isStarted
        have here : (started.closeBlocks started.cursor.column).Sound s :=
          (sound.skipToToken.of_dropStaleKeys? isStarted).closeBlocks
        dsimp only at found
        split at found
        · obtain ⟨ended, isEnded, rfl⟩ := Option.map_eq_some_iff.1 found
          intro token mem
          rw [Array.mem_toList_iff] at mem
          exact ((here.closeBlocks.of_forgetKey? isEnded).push (by trivial)).words token mem
        · split at found
          · rename_i isToken
            exact ih (here.of_token? plain isToken) found
          · cases found

end Lexer

/-- Without a backslash, the words of the scalars of a text stand in the text. -/
theorem Token.words_of_ofText? {s : List Char} {tokens : List Token} (plain : '\\' ∉ s)
    (found : Token.ofText? s = some tokens) : ∀ token ∈ tokens, token.WordsIn s := by
  rw [Token.ofText?] at found
  split at found
  · exact Lexer.words_of_run? plain ⟨List.suffix_rfl, by simp⟩ found
  · cases found

end Yaml

end UiMarkdown
