import LogPipeline.Proofs.Lua.Interpreting

namespace LogPipeline

namespace Lua

/-!
# Where the splitting of scripts and the interpreter agree

The splitting of scripts ends a line comment at a line feed only, the
interpreter at a carriage return as well.  What stands between the two is code
for the interpreter and comment for the splitting.  The tokens of an accepted
script are therefore the right ones exactly if taking out what the splitting
takes for comments leaves the interpreter with the tokens that it found before.
No script is affected whose carriage returns all stand in front of line feeds.
-/

/-- What is left of a part without its comments: a long comment leaves the gap
that it makes, and a line comment ends at the end of its line anyway. -/
def Part.uncommented : Part → List Char
  | .blank letter => [letter]
  | .lineComment _ => []
  | .longComment _ => [' ']
  | .token found => found.letters

/-- A script without what the splitting takes for comments. -/
def uncommented? (letters : List Char) : Option (List Char) :=
  (splitting.parts? letters).map fun parts => parts.flatMap Part.uncommented

/-- Every carriage return stands in front of a line feed. -/
def ReturnsBeforeFeeds (letters : List Char) : Prop :=
  ∀ before after, letters = before ++ '\r' :: after → after.head? = some '\n'

/-- After a line comment the line is at its end. -/
theorem lineEnd_of_partAt? {first : Char} {rest after text : List Char}
    (taken : splitting.partAt? first rest = some (.lineComment text, after)) :
    ∀ next ∈ after.head?, next = '\n' := by
  rcases Splitter.comment_of_partAt? taken rfl with ⟨tail, -, comment⟩
  rcases Splitter.commentAt?_lineComment_iff.mp comment with ⟨-, -, rfl⟩
  intro next member
  simpa [splitting] using fails_of_head?_dropWhile next member

/-- A token that ends before letters ends before what is left of them without
comments. -/
theorem endsBefore_uncommented {token : Token} {letters : List Char} {parts : List Part}
    (split : splitting.parts? letters = some parts) (ends : token.EndsBefore letters) :
    token.EndsBefore (parts.flatMap Part.uncommented) := by
  cases parts with
  | nil => exact token.endsBefore_nil
  | cons part parts =>
    rcases Splitter.parts?_eq_some_cons_iff.mp split with ⟨first, rest, after, rfl, taken, splitRest⟩
    rcases Splitter.append_of_partAt? taken with ⟨whole, nonempty⟩
    cases part with
    | blank letter =>
      rw [← whole] at ends
      exact ends
    | token found =>
      rw [← whole] at ends
      exact (Token.endsBefore_append nonempty _).mpr ((Token.endsBefore_append nonempty _).mp ends)
    | longComment text => exact token.endsBefore_blank rfl _
    | lineComment text =>
      -- What a line comment leaves is what stands at the end of its line.
      change token.EndsBefore (parts.flatMap Part.uncommented)
      cases parts with
      | nil => exact token.endsBefore_nil
      | cons part parts =>
        rcases Splitter.parts?_eq_some_cons_iff.mp splitRest with
          ⟨next, behind, left, rfl, takenNext, -⟩
        cases lineEnd_of_partAt? taken next rfl
        rw [Splitter.partAt?_of_noComment (by simp [startsComment_cons]),
          if_pos (show isBlank '\n' = true by decide)] at takenNext
        cases takenNext
        exact token.endsBefore_blank rfl _

/-- Without comments the same tokens are spelled. -/
theorem spells_uncommented {letters : List Char} {parts : List Part}
    (split : splitting.parts? letters = some parts) :
    Spells (parts.flatMap Part.uncommented) (parts.filterMap Part.token?) := by
  induction parts generalizing letters with
  | nil => exact .nil
  | cons part parts inductionHypothesis =>
    rcases Splitter.parts?_eq_some_cons_iff.mp split with ⟨first, rest, after, rfl, taken, splitRest⟩
    have spells := inductionHypothesis splitRest
    cases part with
    | blank letter => exact .blank (Splitter.blank_of_partAt? taken).2.2 spells
    | lineComment text => exact spells
    | longComment text => exact .blank rfl spells
    | token found =>
      rcases standsAlone_of_partAt? taken with ⟨alone, ends⟩
      exact .token alone (endsBefore_uncommented splitRest ends) spells

/-- Tokens that the interpreter finds are found by the splitting exactly if the
interpreter finds them without the comments of the splitting, too. -/
theorem tokens_eq_ok_iff_uncommented {letters : List Char} {read : List Token}
    (found : Lexicon.tokens? letters = some read) :
    tokens letters = .ok read ↔ (uncommented? letters).bind Lexicon.tokens? = some read := by
  rw [tokens_eq_ok_iff, Splitter.tokens?, uncommented?]
  cases split : splitting.parts? letters with
  | none => simp
  | some parts =>
    have spells := spells_uncommented split
    rw [Option.map_some, Option.map_some, Option.bind_some, tokens?_of_spells spells,
      Option.some_inj]
    constructor
    · intro same
      exact ⟨same.symm, same ▸ isValid_of_tokens? found⟩
    · intro same
      exact same.1.symm

theorem ReturnsBeforeFeeds.of_append {before letters : List Char}
    (returns : ReturnsBeforeFeeds (before ++ letters)) : ReturnsBeforeFeeds letters := by
  rintro inner after rfl
  exact returns (before ++ inner) after (List.append_assoc before inner _).symm

/-- The splitting and the interpreter end a line comment at the same line feed,
as long as no other letters stand after a carriage return. -/
theorem tokens?_after_lineComment {letters : List Char} (returns : ReturnsBeforeFeeds letters) :
    interpreting.tokens? (letters.dropWhile fun letter => !isBreak letter) =
      interpreting.tokens? (letters.dropWhile fun letter => letter ≠ '\n') := by
  induction letters with
  | nil => rfl
  | cons letter rest inductionHypothesis =>
    have returnsRest := @ReturnsBeforeFeeds.of_append [letter] rest returns
    by_cases feed : letter = '\n'
    · subst feed
      rfl
    by_cases carriageReturn : letter = '\r'
    · subst carriageReturn
      cases rest with
      | nil => exact absurd (returns [] [] rfl) (by simp)
      | cons next rest =>
        have isFeed : next = '\n' := by simpa using returns [] (next :: rest) rfl
        subst isFeed
        exact Splitter.tokens?_of_isBlank (show isBlank '\r' = true by decide) _
    · have noBreak : (!isBreak letter) = true := by simp [isBreak, feed, carriageReturn]
      have noFeed : decide (letter ≠ '\n') = true := by simpa using feed
      simp only [List.dropWhile_cons, noBreak, noFeed, if_true]
      exact inductionHypothesis returnsRest

/-- Whatever the interpreter takes, the splitting takes it as well, unless it is
a line comment. -/
theorem partAt?_of_interpreting {first : Char} {rest after : List Char} {part : Part}
    (taken : interpreting.partAt? first rest = some (part, after))
    (noLine : ∀ text, part ≠ .lineComment text) :
    splitting.partAt? first rest = some (part, after) := by
  cases part with
  | blank letter =>
    rcases Splitter.blank_of_partAt? taken with ⟨rfl, rfl, blank⟩
    rw [Splitter.partAt?_of_noComment (Splitter.noComment_of_partAt? taken rfl), if_pos blank]
  | token token =>
    rcases Splitter.token_of_partAt? taken with ⟨noComment, noBlank, isToken⟩
    have sameToken : splitting.token? first rest = some (token, after) :=
      (Lexicon.token?_eq_some_iff.mp isToken).1
    rw [Splitter.partAt?_of_noComment noComment, if_neg (by simp [noBlank]), sameToken,
      Option.map_some]
  | longComment text =>
    rcases Splitter.comment_of_partAt? taken rfl with ⟨tail, same, comment⟩
    cases same
    exact Splitter.commentAt?_of_longComment comment
  | lineComment text => exact absurd rfl (noLine text)

/-- Where carriage returns stand in front of line feeds only, the splitting
finds what the interpreter finds. -/
theorem tokens_of_returnsBeforeFeeds {letters : List Char} {read : List Token}
    (returns : ReturnsBeforeFeeds letters) (found : Lexicon.tokens? letters = some read) :
    tokens letters = .ok read := by
  rw [tokens?_eq] at found
  rw [tokens_eq_ok_iff]
  generalize size : letters.length = bound
  induction bound using Nat.strongRecOn generalizing letters read with
  | ind bound inductionHypothesis =>
    subst size
    cases letters with
    | nil =>
      rw [Splitter.tokens?_nil] at found ⊢
      exact found
    | cons first rest =>
      rw [Splitter.tokens?_cons, Option.bind_eq_some_iff] at found
      rcases found with ⟨⟨part, after⟩, taken, foundRest⟩
      rcases Option.map_eq_some_iff.mp foundRest with ⟨others, foundOthers, rfl⟩
      by_cases isLine : ∃ text, part = .lineComment text
      · rcases isLine with ⟨text, rfl⟩
        rcases Splitter.comment_of_partAt? taken rfl with ⟨tail, same, comment⟩
        cases same
        rcases Splitter.commentAt?_lineComment_iff.mp comment with ⟨notOpened, -, rfl⟩
        have samePart : splitting.partAt? '-' ('-' :: tail) = some (.lineComment _, _) :=
          Splitter.commentAt?_lineComment_iff.mpr ⟨notOpened, rfl, rfl⟩
        have tailReturns := @ReturnsBeforeFeeds.of_append ['-', '-'] tail returns
        have whole := @List.takeWhile_append_dropWhile _ (fun letter => decide (letter ≠ '\n')) tail
        have leftReturns := tailReturns
        rw [← whole] at leftReturns
        have foundLeft := (tokens?_after_lineComment tailReturns).symm.trans foundOthers
        have left := inductionHypothesis _ ?_ leftReturns.of_append foundLeft rfl
        · have sameLeft : (tail.dropWhile fun letter => !splitting.endsLine letter) =
              tail.dropWhile fun letter => decide (letter ≠ '\n') := by simp [splitting]
          rw [Splitter.tokens?_of_gap samePart rfl, List.tail_cons, sameLeft, left]
          rfl
        · have notLonger := (List.dropWhile_suffix (l := tail) (· ≠ '\n')).length_le
          simp only [List.length_cons]
          omega
      · have samePart := partAt?_of_interpreting taken fun text same => isLine ⟨text, same⟩
        have shorter := Splitter.length_lt_of_partAt? taken
        rw [← (Splitter.append_of_partAt? taken).1] at returns
        have left := inductionHypothesis _ shorter returns.of_append foundOthers rfl
        rw [Splitter.tokens?_cons, samePart, Option.bind_some]
        dsimp only
        rw [left, Option.map_some]

/-- The interpreter finds tokens in every script that it accepts.  The splitting
finds the same ones exactly if what it takes for comments holds none of them. -/
theorem tokens_of_isChunk {source : String} (accepted : isChunk source = true) :
    ∃ read, Lexicon.tokens? source.toList = some read ∧
      (tokens source.toList = .ok read ↔
        (uncommented? source.toList).bind Lexicon.tokens? = some read) ∧
      (ReturnsBeforeFeeds source.toList → tokens source.toList = .ok read) := by
  rw [isChunk, Option.any_eq_true] at accepted
  rcases accepted with ⟨block, isBlock, -⟩
  rcases Option.bind_eq_some_iff.mp isBlock with ⟨read, found, -⟩
  exact ⟨read, found, tokens_eq_ok_iff_uncommented found,
    fun returns => tokens_of_returnsBeforeFeeds returns found⟩

theorem tokens_of_isChunk_feed :
    isChunk "--a\nx=1" = true ∧
      ∃ read, Lexicon.tokens? "--a\nx=1".toList = some read ∧
        (tokens "--a\nx=1".toList = .ok read ↔
          (uncommented? "--a\nx=1".toList).bind Lexicon.tokens? = some read) ∧
        (ReturnsBeforeFeeds "--a\nx=1".toList → tokens "--a\nx=1".toList = .ok read) := by
  have accepted : isChunk "--a\nx=1" = true := by decide +kernel
  exact ⟨accepted, tokens_of_isChunk accepted⟩

/-- A carriage return alone ends the comment for the interpreter only. -/
theorem tokens_of_isChunk_return :
    isChunk "--a\rx=1" = true ∧
      Lexicon.tokens? "--a\rx=1".toList =
        some [.ofName ['x'], .ofSymbol "=", { kind := .number, letters := ['1'] }] ∧
      tokens "--a\rx=1".toList = .ok [] := by
  refine ⟨by decide +kernel, by decide +kernel, ?_⟩
  exact toOption_eq_some_iff.mp (by decide +kernel)

end Lua

end LogPipeline
