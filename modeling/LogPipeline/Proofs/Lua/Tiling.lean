import LogPipeline.Proofs.Lua.Gaps

namespace LogPipeline

namespace Lua

/-!
# Gaps and tokens tile a script

A script is its gaps and its tokens in turn, and a gap holds nothing but blanks
and comments.  What a gap is, is said here by its letters alone: a long comment
ends with the first closing of its level, and a line comment with its line.  A
token, read alone, is the same token, so nothing around it has a part in it, and
it is as long as a token at its place can be.
-/

def closing (level : Nat) : List Char :=
  ']' :: closingTail level

/-- Letters from the opening of a long bracket up to the first closing of its level. -/
inductive IsLongBracket : List Char → Prop
  | intro {level : Nat} {body : List Char} :
      (∀ before after, body ++ closing level = before ++ (closing level ++ after) → after = []) →
        IsLongBracket (longLetters level (body ++ closing level))

/-- Letters that are blanks, closed long comments and line comments in a row.  A
line comment opens no long bracket, and a line feed follows it there unless the
script ends with it. -/
inductive IsGap (isLast : Bool) : List Char → Prop
  | nil : IsGap isLast []
  | blank {letter : Char} {rest : List Char} :
      letter ∈ [' ', '\t', '\n', '\r', '\x0b', '\x0c'] → IsGap isLast rest →
        IsGap isLast (letter :: rest)
  | longComment {bracket rest : List Char} :
      IsLongBracket bracket → IsGap isLast rest → IsGap isLast ('-' :: '-' :: (bracket ++ rest))
  | lineComment {text rest : List Char} :
      (∀ level inside, text ≠ longLetters level inside) → '\n' ∉ text →
        rest.head? = some '\n' ∨ isLast = true ∧ rest = [] → IsGap isLast rest →
          IsGap isLast ('-' :: '-' :: (text ++ rest))

/-- The letters behind the token at a place of a script. -/
def behind (source : String) (read : List Token) (place : Nat) : List Char :=
  woven (fun index => gap source (place + 1 + index)) (read.drop (place + 1))

/-! ## What is passed over -/

/-- What is left behind the first closing reaches back at least to any closing. -/
theorem length_le_of_untilClosing? {level : Nat} {before after inside rest : List Char}
    (found : untilClosing? level (before ++ (closing level ++ after)) = some (inside, rest)) :
    after.length ≤ rest.length := by
  induction before generalizing inside with
  | nil =>
    rw [List.nil_append, closing, List.cons_append, untilClosing?] at found
    have same : (closingTail level ++ after).take (level + 1) = closingTail level :=
      List.take_left' (length_closingTail level)
    rw [if_pos (by simp [same]), List.drop_left' (length_closingTail level)] at found
    cases found
    exact Nat.le_refl _
  | cons letter before inductionHypothesis =>
    rw [List.cons_append, untilClosing?] at found
    split at found
    · cases found
      simp only [List.length_drop, List.length_append, closing, List.length_cons,
        length_closingTail]
      omega
    · rcases Option.map_eq_some_iff.mp found with ⟨⟨inner, tail⟩, foundInner, same⟩
      cases same
      exact inductionHypothesis foundInner

theorem isLongBracket_of_untilClosing? {level : Nat} {letters inside after : List Char}
    (found : untilClosing? level letters = some (inside, after)) :
    IsLongBracket (longLetters level inside) := by
  rw [← append_of_untilClosing? found] at found
  have alone := untilClosing?_append_iff.mp found
  rcases closing_of_untilClosing? found with ⟨body, rfl⟩
  refine .intro fun before behind same => ?_
  rw [← closing, same] at alone
  exact List.eq_nil_of_length_eq_zero (Nat.le_zero.mp (length_le_of_untilClosing? alone))

theorem not_longLetters_of_longOpening? {letters after : List Char}
    (notOpened : longOpening? (letters ++ after) = none) (level : Nat) (inside : List Char) :
    letters ≠ longLetters level inside := by
  rintro rfl
  rw [longLetters_append, longOpening?_longLetters] at notOpened
  cases notOpened

theorem mem_of_isBlank {letter : Char} (blank : isBlank letter = true) :
    letter ∈ [' ', '\t', '\n', '\r', '\x0b', '\x0c'] := by
  simpa [isBlank, or_assoc] using blank

/-- What stands behind a line comment is a line feed that is passed over, unless
nothing stands there. -/
private theorem feed_of_lineEnd {letters skipped rest : List Char}
    (whole : letters.dropWhile (· ≠ '\n') = skipped ++ rest) (noFeed : rest.head? ≠ some '\n') :
    skipped.head? = some '\n' ∨ rest.isEmpty = true ∧ skipped = [] := by
  have stops := @fails_of_head?_dropWhile _ (· ≠ '\n') letters
  rw [whole] at stops
  cases skipped with
  | cons first others => exact .inl (congrArg some (by simpa using stops first rfl))
  | nil =>
    cases rest with
    | nil => exact .inr ⟨rfl, rfl⟩
    | cons first others => exact absurd (congrArg some (by simpa using stops first rfl)) noFeed

/-- What is passed over is a gap, and no line feed is left behind it. -/
theorem isGap_of_afterGap {line reached : Nat} {letters rest : List Char}
    (passed : afterGap line letters = .ok (reached, rest)) :
    rest.head? ≠ some '\n' ∧ ∃ skipped, letters = skipped ++ rest ∧ IsGap rest.isEmpty skipped := by
  fun_induction afterGap line letters with
  | case1 =>
    cases passed
    exact ⟨by simp, [], rfl, .nil⟩
  | case2 => cases passed
  | case3 line inner level body opened inside after found inductionHypothesis =>
    rcases inductionHypothesis passed with ⟨noFeed, skipped, rfl, isGap⟩
    refine ⟨noFeed, _, ?_, .longComment (isLongBracket_of_untilClosing? found) isGap⟩
    rw [← longLetters_of_longOpening? opened, ← append_of_untilClosing? found,
      ← longLetters_append, List.cons_append, List.cons_append, List.append_assoc]
  | case4 line inner notOpened inductionHypothesis =>
    rcases inductionHypothesis passed with ⟨noFeed, skipped, whole, isGap⟩
    have parts := List.takeWhile_append_dropWhile (p := (· ≠ '\n')) (l := inner)
    refine ⟨noFeed, '-' :: '-' :: (inner.takeWhile (· ≠ '\n') ++ skipped), ?_,
      .lineComment ?_ ?_ ?_ isGap⟩
    · rw [List.cons_append, List.cons_append, List.append_assoc, ← whole, parts]
    · rw [← parts] at notOpened
      exact not_longLetters_of_longOpening? notOpened
    · intro feed
      simpa using passes_of_mem_takeWhile _ feed
    · exact feed_of_lineEnd whole noFeed
  | case5 line inner notComment inductionHypothesis =>
    rcases inductionHypothesis passed with ⟨noFeed, skipped, rfl, isGap⟩
    exact ⟨noFeed, '\n' :: skipped, rfl, .blank (by decide) isGap⟩
  | case6 line letter inner notComment notFeed blank inductionHypothesis =>
    rcases inductionHypothesis passed with ⟨noFeed, skipped, rfl, isGap⟩
    exact ⟨noFeed, letter :: skipped, rfl, .blank (mem_of_isBlank blank) isGap⟩
  | case7 line letter inner notComment notFeed notBlank =>
    cases passed
    exact ⟨by simpa using notFeed, [], rfl, .nil⟩

theorem isGap_gapFrom_zero {line reached : Nat} {letters rest : List Char}
    (passed : afterGap line letters = .ok (reached, rest)) :
    IsGap rest.isEmpty (gapFrom line letters 0) := by
  rcases isGap_of_afterGap passed with ⟨-, skipped, whole, isGap⟩
  rw [List.append_cancel_right ((gapFrom_zero_append passed).trans whole)]
  exact isGap

/-- The first gap of letters is the last one exactly if there are no tokens. -/
theorem isGap_of_tokensFrom {line : Nat} {letters : List Char} {read : List Token}
    (split : tokensFrom line letters = .ok read) : IsGap read.isEmpty (gapFrom line letters 0) := by
  rw [tokensFrom_eq] at split
  split at split
  · cases split
  · rename_i reached passed
    cases split
    exact isGap_gapFrom_zero passed
  · rename_i reached first rest passed
    split at split
    · cases split
    · rename_i token after last taken
      cases others : tokensFrom last after <;> rw [others] at split <;> cases split
      exact isGap_gapFrom_zero passed

theorem isGap_gapFrom {line : Nat} {letters : List Char} {read : List Token}
    (split : tokensFrom line letters = .ok read) :
    (∀ index < read.length, IsGap false (gapFrom line letters index)) ∧
      IsGap true (gapFrom line letters read.length) := by
  have own := isGap_of_tokensFrom split
  induction read generalizing line letters with
  | nil => exact ⟨fun _ inside => absurd inside (Nat.not_lt_zero _), own⟩
  | cons token read inductionHypothesis =>
    rcases first_of_tokensFrom split with ⟨after, last, -, -, splitRest, later⟩
    rcases inductionHypothesis splitRest (isGap_of_tokensFrom splitRest) with ⟨inner, final⟩
    refine ⟨fun index inside => ?_, ?_⟩
    · cases index with
      | zero => exact own
      | succ index =>
        rw [later]
        exact inner index (Nat.lt_of_succ_lt_succ inside)
    · rw [List.length_cons, later]
      exact final

/-! ## Tokens read alone -/

theorem tokenize_of_standsAlone {token : Token} (alone : token.StandsAlone) :
    tokenize (String.ofList token.letters) = .ok [token] := by
  have spells : Spells (token.letters ++ []) [token] := .token alone token.endsBefore_nil .nil
  rw [List.append_nil] at spells
  exact tokenize_of_spells spells

/-- Where a token stands alone and ends, no longer token begins. -/
theorem tokenize_ne_of_endsBefore {token longer : Token} {more : List Char}
    (alone : token.StandsAlone) (ends : token.EndsBefore more) (notEmpty : more ≠ [])
    (spelled : longer.letters = token.letters ++ more) :
    tokenize (String.ofList longer.letters) ≠ .ok [longer] := by
  intro split
  rw [tokenize_eq_ok_iff, String.toList_ofList, spelled] at split
  rcases partAt?_of_standsAlone alone ends with ⟨first, tail, letters, isPart⟩
  rw [tokens_eq_ok_iff, letters, List.cons_append, Splitter.tokens?_of_token isPart] at split
  rcases Option.map_eq_some_iff.mp split with ⟨others, -, same⟩
  cases same
  exact notEmpty (List.append_right_eq_self.mp spelled.symm)

/-- A script is its gaps and its tokens in turn.  Every gap is a row of blanks,
closed long comments and line comments, and only the last one may end with a line
comment.  Every token, read alone, is that token and nothing else, and no token
of any kind is longer at its place. -/
theorem tiles_of_tokenize {source : String} {read : List Token}
    (split : tokenize source = .ok read) :
    source.toList = woven (gap source) read ∧
      ((∀ index < read.length, IsGap false (gap source index)) ∧
        IsGap true (gap source read.length)) ∧
      (∀ token ∈ read, tokenize (String.ofList token.letters) = .ok [token]) ∧
      ∀ place token, read[place]? = some token → ∀ more, more <+: behind source read place →
        more ≠ [] → ∀ longer : Token, longer.letters = token.letters ++ more →
          tokenize (String.ofList longer.letters) ≠ .ok [longer] := by
  have splitLetters := tokenize_eq_ok_iff.mp split
  have alone := standsAlone_of_tokenize split
  refine ⟨woven_gapFrom splitLetters, isGap_gapFrom splitLetters, ?_, ?_⟩
  · intro token member
    exact tokenize_of_standsAlone (alone token member)
  · intro place token here more fits notEmpty longer spelled
    have ends : token.EndsBefore (behind source read place) := endsBefore_woven splitLetters here
    rcases fits with ⟨others, whole⟩
    rw [← whole, Token.endsBefore_append notEmpty] at ends
    exact tokenize_ne_of_endsBefore (alone token (List.mem_of_getElem? here)) ends notEmpty spelled

/-- A script with comments of both kinds that touch its tokens, the last one up to its end. -/
def commented : String :=
  "a--[[ b ]] ..--c\n1.5-[=[--]]]=]--[==[ ]] ]==]--[= d"

def commentedTokens : List Token :=
  [.ofName ['a'], .ofSymbol "..", { kind := .number, letters := "1.5".toList }, .ofSymbol "-",
    { kind := .string, letters := "[=[--]]]=]".toList }]

theorem tiles_of_tokenize_commented :
    tokenize commented = .ok commentedTokens ∧
      (List.range 6).map (gap commented) =
        [[], "--[[ b ]] ".toList, "--c\n".toList, [], [], "--[==[ ]] ]==]--[= d".toList] ∧
      commented.toList = woven (gap commented) commentedTokens ∧
      IsGap false (gap commented 2) ∧ IsGap true (gap commented 5) ∧
      tokenize (String.ofList "[=[--]]]=]".toList) =
        .ok [{ kind := .string, letters := "[=[--]]]=]".toList }] := by
  have split : tokenize commented = .ok commentedTokens :=
    toOption_eq_some_iff.mp (by decide +kernel)
  rcases tiles_of_tokenize split with ⟨whole, ⟨inner, final⟩, alone, -⟩
  have listed : { kind := .string, letters := "[=[--]]]=]".toList } ∈ commentedTokens := by
    decide +kernel
  exact ⟨split, by decide +kernel, whole, inner 2 (by decide), final, alone _ listed⟩

end Lua

end LogPipeline
