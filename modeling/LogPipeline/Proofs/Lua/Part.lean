import LogPipeline.Proofs.Lua.Boundary

namespace LogPipeline

namespace Lua

/-!
# The parts of a script

A script is a row of parts: blanks, comments and tokens.  What is left to
decide is which letters end a line comment and which token stands at the start
of letters; the rest is the same for everyone who splits scripts.  The letters
of the parts, one after the other, are the letters of the script.

The tokens that the splitting of scripts finds are the tokens among its parts.
-/

/-- A part of a script, with its letters as they stand there.  The text of a
comment is what follows its two dashes. -/
inductive Part where
  | blank (letter : Char)
  | lineComment (text : List Char)
  | longComment (text : List Char)
  | token (token : Token)
deriving DecidableEq

namespace Part

def letters : Part → List Char
  | .blank letter => [letter]
  | .lineComment text => '-' :: '-' :: text
  | .longComment text => '-' :: '-' :: text
  | .token found => found.letters

def token? : Part → Option Token
  | .token found => some found
  | _ => none

def isComment : Part → Bool
  | .lineComment _ => true
  | .longComment _ => true
  | _ => false

end Part

/-- A way of splitting scripts: where a line comment ends, and which token
stands at the start of letters that begin with no gap.  A token is never empty
and takes its letters from where it stands. -/
structure Splitter where
  endsLine : Char → Bool
  token? : Char → List Char → Option (Token × List Char)
  whole : ∀ {first : Char} {rest after : List Char} {token : Token},
    token? first rest = some (token, after) →
      token.letters ++ after = first :: rest ∧ token.letters ≠ []

namespace Splitter

variable {way : Splitter}

/-- The comment after two dashes, and what follows it. -/
def commentAt? (way : Splitter) (letters : List Char) : Option (Part × List Char) :=
  match longOpening? letters with
  | some (level, body) =>
    (untilClosing? level body).map fun (inside, after) =>
      (.longComment (longLetters level inside), after)
  | none =>
    some (.lineComment (letters.takeWhile fun letter => !way.endsLine letter),
      letters.dropWhile fun letter => !way.endsLine letter)

/-- The part at the start of letters, and what follows it. -/
def partAt? (way : Splitter) (first : Char) (rest : List Char) : Option (Part × List Char) :=
  if startsComment (first :: rest) then way.commentAt? rest.tail
  else if isBlank first then some (.blank first, rest)
  else (way.token? first rest).map fun (token, after) => (.token token, after)

theorem append_of_commentAt? {letters after : List Char} {part : Part}
    (taken : way.commentAt? letters = some (part, after)) :
    part.letters ++ after = '-' :: '-' :: letters ∧ part.letters ≠ [] ∧ part.isComment = true := by
  unfold commentAt? at taken
  split at taken
  · rename_i level body opened
    rcases Option.map_eq_some_iff.mp taken with ⟨⟨inside, left⟩, found, same⟩
    rcases Prod.mk.inj same with ⟨rfl, rfl⟩
    have joined := append_of_untilClosing? found
    have whole := longLetters_of_longOpening? opened
    rw [← joined, ← longLetters_append] at whole
    exact ⟨by simp only [Part.letters, List.cons_append, whole], by simp [Part.letters], rfl⟩
  · rcases Prod.mk.inj (Option.some.inj taken) with ⟨rfl, rfl⟩
    exact ⟨by simp [Part.letters], by simp [Part.letters], rfl⟩

/-- A line comment stands where no long bracket opens, and reaches up to the end of its line. -/
theorem commentAt?_lineComment_iff {letters text after : List Char} :
    way.commentAt? letters = some (.lineComment text, after) ↔
      longOpening? letters = none ∧
        (letters.takeWhile fun letter => !way.endsLine letter) = text ∧
        (letters.dropWhile fun letter => !way.endsLine letter) = after := by
  rw [commentAt?]
  cases longOpening? letters with
  | some pair => simp
  | none => simp

/-- Every way of splitting scripts takes the same long comments. -/
theorem commentAt?_of_longComment {other : Splitter} {letters text after : List Char}
    (taken : way.commentAt? letters = some (.longComment text, after)) :
    other.commentAt? letters = some (.longComment text, after) := by
  rw [commentAt?] at taken ⊢
  split at taken
  · exact taken
  · cases taken

theorem partAt?_comment (tail : List Char) :
    way.partAt? '-' ('-' :: tail) = way.commentAt? tail := rfl

theorem partAt?_of_noComment {first : Char} {rest : List Char}
    (noComment : startsComment (first :: rest) = false) :
    way.partAt? first rest =
      if isBlank first then some (.blank first, rest)
      else (way.token? first rest).map fun (token, after) => (.token token, after) := by
  rw [partAt?, if_neg (by simp [noComment])]

theorem append_of_partAt? {first : Char} {rest after : List Char} {part : Part}
    (taken : way.partAt? first rest = some (part, after)) :
    part.letters ++ after = first :: rest ∧ part.letters ≠ [] := by
  cases dashes : startsComment (first :: rest) with
  | true =>
    rcases startsComment_iff.mp dashes with ⟨tail, same⟩
    cases same
    rcases append_of_commentAt? taken with ⟨whole, nonempty, -⟩
    exact ⟨whole, nonempty⟩
  | false =>
    rw [partAt?_of_noComment dashes] at taken
    split at taken
    · rcases Prod.mk.inj (Option.some.inj taken) with ⟨rfl, rfl⟩
      exact ⟨rfl, by simp [Part.letters]⟩
    · rcases Option.map_eq_some_iff.mp taken with ⟨⟨found, left⟩, read, same⟩
      rcases Prod.mk.inj same with ⟨rfl, rfl⟩
      exact way.whole read

/-- What stands at the start of letters: a comment after two dashes, else a
blank, else a token. -/
theorem comment_of_partAt? {first : Char} {rest after : List Char} {part : Part}
    (taken : way.partAt? first rest = some (part, after)) (comment : part.isComment = true) :
    ∃ tail, first :: rest = '-' :: '-' :: tail ∧ way.commentAt? tail = some (part, after) := by
  cases dashes : startsComment (first :: rest) with
  | true =>
    rcases startsComment_iff.mp dashes with ⟨tail, same⟩
    cases same
    exact ⟨tail, rfl, taken⟩
  | false =>
    rw [partAt?_of_noComment dashes] at taken
    split at taken
    · cases taken
      cases comment
    · rcases Option.map_eq_some_iff.mp taken with ⟨pair, -, same⟩
      cases same
      cases comment

theorem noComment_of_partAt? {first : Char} {rest after : List Char} {part : Part}
    (taken : way.partAt? first rest = some (part, after)) (noComment : part.isComment = false) :
    startsComment (first :: rest) = false := by
  cases dashes : startsComment (first :: rest) with
  | false => rfl
  | true =>
    rcases startsComment_iff.mp dashes with ⟨tail, same⟩
    cases same
    rw [(append_of_commentAt? taken).2.2] at noComment
    cases noComment

theorem blank_of_partAt? {first letter : Char} {rest after : List Char}
    (taken : way.partAt? first rest = some (.blank letter, after)) :
    letter = first ∧ after = rest ∧ isBlank letter = true := by
  rw [partAt?_of_noComment (noComment_of_partAt? taken rfl)] at taken
  split at taken
  · rename_i blank
    cases taken
    exact ⟨rfl, rfl, blank⟩
  · rcases Option.map_eq_some_iff.mp taken with ⟨pair, -, same⟩
    cases same

theorem token_of_partAt? {first : Char} {rest after : List Char} {token : Token}
    (taken : way.partAt? first rest = some (.token token, after)) :
    startsComment (first :: rest) = false ∧ isBlank first = false ∧
      way.token? first rest = some (token, after) := by
  have noComment := noComment_of_partAt? taken rfl
  rw [partAt?_of_noComment noComment] at taken
  split at taken
  · cases taken
  · rename_i noBlank
    rcases Option.map_eq_some_iff.mp taken with ⟨pair, read, same⟩
    cases same
    exact ⟨noComment, by simpa using noBlank, read⟩

theorem length_lt_of_partAt? {first : Char} {rest after : List Char} {part : Part}
    (taken : way.partAt? first rest = some (part, after)) :
    after.length < (first :: rest).length := by
  rcases append_of_partAt? taken with ⟨whole, nonempty⟩
  have positive := List.length_pos_iff.mpr nonempty
  rw [← whole, List.length_append]
  omega

/-- The parts of letters, unless some token or long comment in them is faulty. -/
def parts? (way : Splitter) (letters : List Char) : Option (List Part) :=
  match letters with
  | [] => some []
  | first :: rest =>
    match _taken : way.partAt? first rest with
    | none => none
    | some (part, after) => (parts? way after).map (part :: ·)
termination_by letters.length
decreasing_by exact length_lt_of_partAt? _taken

/-- The tokens of letters, unless some token or long comment in them is faulty. -/
def tokens? (way : Splitter) (letters : List Char) : Option (List Token) :=
  (way.parts? letters).map fun parts => parts.filterMap Part.token?

theorem parts?_nil : way.parts? [] = some [] := by
  rw [parts?]

theorem parts?_cons (first : Char) (rest : List Char) :
    way.parts? (first :: rest) =
      (way.partAt? first rest).bind fun (part, after) =>
        (way.parts? after).map (part :: ·) := by
  rw [parts?]
  split
  · rename_i none
    rw [none, Option.bind_none]
  · rename_i part after some
    rw [some, Option.bind_some]

theorem parts?_eq_some_nil_iff {letters : List Char} :
    way.parts? letters = some [] ↔ letters = [] := by
  cases letters with
  | nil => simp [parts?_nil]
  | cons first rest =>
    rw [parts?_cons]
    cases way.partAt? first rest with
    | none => simp
    | some pair => simp

theorem parts?_eq_some_cons_iff {letters : List Char} {part : Part} {parts : List Part} :
    way.parts? letters = some (part :: parts) ↔
      ∃ first rest after, letters = first :: rest ∧
        way.partAt? first rest = some (part, after) ∧ way.parts? after = some parts := by
  cases letters with
  | nil => simp [parts?_nil]
  | cons first rest =>
    rw [parts?_cons, Option.bind_eq_some_iff]
    constructor
    · rintro ⟨⟨taken, after⟩, found, read⟩
      rcases Option.map_eq_some_iff.mp read with ⟨others, readOthers, same⟩
      rcases List.cons.inj same with ⟨rfl, rfl⟩
      exact ⟨first, rest, after, rfl, found, readOthers⟩
    · rintro ⟨_, _, after, same, found, read⟩
      rcases List.cons.inj same with ⟨rfl, rfl⟩
      exact ⟨(part, after), found, by simp only [read, Option.map_some]⟩

/-- The parts tile the script. -/
theorem flatMap_letters_of_parts? {letters : List Char} {parts : List Part}
    (read : way.parts? letters = some parts) : parts.flatMap Part.letters = letters := by
  induction parts generalizing letters with
  | nil => rw [parts?_eq_some_nil_iff.mp read, List.flatMap_nil]
  | cons part parts inductionHypothesis =>
    rcases parts?_eq_some_cons_iff.mp read with ⟨first, rest, after, rfl, found, readOthers⟩
    rw [List.flatMap_cons, inductionHypothesis readOthers]
    exact (append_of_partAt? found).1

theorem parts?_of_isBlank {letter : Char} (blank : isBlank letter = true) (rest : List Char) :
    way.parts? (letter :: rest) = (way.parts? rest).map (.blank letter :: ·) := by
  have noComment : startsComment (letter :: rest) = false := by
    rw [startsComment_cons]
    have noDash : letter ≠ '-' := by rintro rfl; revert blank; decide
    simp [noDash]
  rw [parts?_cons, partAt?, if_neg (by simp [noComment]), if_pos blank, Option.bind_some]

theorem tokens?_nil : way.tokens? [] = some [] := by
  rw [tokens?, parts?_nil]
  rfl

theorem tokens?_cons (first : Char) (rest : List Char) :
    way.tokens? (first :: rest) =
      (way.partAt? first rest).bind fun (part, after) =>
        (way.tokens? after).map (part.token?.toList ++ ·) := by
  rw [tokens?, parts?_cons]
  cases way.partAt? first rest with
  | none => rfl
  | some pair =>
    rcases pair with ⟨part, after⟩
    rw [Option.bind_some, Option.bind_some]
    dsimp only
    rw [tokens?, Option.map_map, Option.map_map]
    congr 1
    funext parts
    cases part <;> rfl

/-- A blank or a comment adds no token. -/
theorem tokens?_of_gap {first : Char} {rest after : List Char} {part : Part}
    (taken : way.partAt? first rest = some (part, after)) (gap : part.token? = none) :
    way.tokens? (first :: rest) = way.tokens? after := by
  rw [tokens?_cons, taken, Option.bind_some]
  dsimp only
  rw [gap]
  exact Option.map_id'

theorem tokens?_of_token {first : Char} {rest after : List Char} {token : Token}
    (taken : way.partAt? first rest = some (.token token, after)) :
    way.tokens? (first :: rest) = (way.tokens? after).map (token :: ·) := by
  rw [tokens?_cons, taken, Option.bind_some]
  rfl

theorem tokens?_of_none {first : Char} {rest : List Char}
    (taken : way.partAt? first rest = none) : way.tokens? (first :: rest) = none := by
  rw [tokens?_cons, taken]
  rfl

theorem tokens?_of_isBlank {letter : Char} (blank : isBlank letter = true) (rest : List Char) :
    way.tokens? (letter :: rest) = way.tokens? rest := by
  rw [tokens?, tokens?, parts?_of_isBlank blank, Option.map_map]
  rfl

end Splitter

/-! ## The tokens of a script among its parts -/

/-- The way in which scripts are split: a line comment ends at a line feed. -/
def splitting : Splitter where
  endsLine := fun letter => letter = '\n'
  token? := readToken?
  whole := by
    intro first rest after token taken
    rw [readToken?_eq_some_iff, ← @tokenAt_eq_ok_iff 1] at taken
    rcases taken with ⟨reached, taken⟩
    exact append_of_tokenAt taken

theorem tokensFrom_eq (line : Nat) (letters : List Char) :
    tokensFrom line letters =
      match afterGap line letters with
      | .error fault => .error fault
      | .ok (_, []) => .ok []
      | .ok (reached, first :: rest) =>
        match tokenAt reached first rest with
        | .error fault => .error fault
        | .ok (token, after, last) => (tokensFrom last after).map (token :: ·) := by
  rw [tokensFrom]
  split
  · rename_i fault skipped
    rw [skipped]
  · rename_i reached skipped
    rw [skipped]
  · rename_i reached first rest skipped
    rw [skipped]
    split
    · rename_i fault taken
      simp only [taken]
    · rename_i token after last taken
      simp only [taken]
      cases tokensFrom last after <;> rfl

theorem tokensFrom_congr {line other : Nat} {letters rest : List Char}
    (same : afterGap line letters = afterGap other rest) :
    tokensFrom line letters = tokensFrom other rest := by
  rw [tokensFrom_eq, tokensFrom_eq, same]

theorem afterGap_comment (line : Nat) (rest : List Char) :
    afterGap line ('-' :: '-' :: rest) =
      match longOpening? rest with
      | some (level, body) =>
        match untilClosing? level body with
        | none => .error { line := line + body.count '\n', cause := .unfinishedLongComment }
        | some (inside, after) => afterGap (line + inside.count '\n') after
      | none => afterGap line (rest.dropWhile (· ≠ '\n')) := by
  rw [afterGap]
  split
  · rename_i level body opened
    split
    · rename_i unclosed
      simp only [opened, unclosed]
    · rename_i inside after found
      simp only [opened, found]
  · rename_i notOpened
    simp only [notOpened]

theorem afterGap_cons {line : Nat} {first : Char} {rest : List Char}
    (noComment : startsComment (first :: rest) = false) :
    afterGap line (first :: rest) =
      if first = '\n' then afterGap (line + 1) rest
      else if isBlank first then afterGap line rest
      else .ok (line, first :: rest) := by
  have noDashes : ∀ tail, first = '-' → rest = '-' :: tail → False := by
    rintro tail rfl rfl
    simp [startsComment] at noComment
  rw [afterGap.eq_3 line first rest noDashes]

theorem afterGap_token {line : Nat} {first : Char} {rest : List Char}
    (noComment : startsComment (first :: rest) = false) (noBlank : isBlank first = false) :
    afterGap line (first :: rest) = .ok (line, first :: rest) := by
  have noFeed : first ≠ '\n' := by rintro rfl; revert noBlank; decide
  rw [afterGap_cons noComment, if_neg noFeed, if_neg (by simp [noBlank])]

theorem tokensFrom_token {line : Nat} {first : Char} {rest : List Char}
    (noComment : startsComment (first :: rest) = false) (noBlank : isBlank first = false) :
    tokensFrom line (first :: rest) =
      match tokenAt line first rest with
      | .error fault => .error fault
      | .ok (token, after, last) => (tokensFrom last after).map (token :: ·) := by
  rw [tokensFrom_eq, afterGap_token noComment noBlank]

/-- A comment or a blank is passed over, and what follows it is split. -/
private theorem tokensFrom_of_gap {first : Char} {rest after : List Char} {part : Part}
    (taken : splitting.partAt? first rest = some (part, after)) (gap : part.token? = none)
    (line : Nat) :
    ∃ reached, tokensFrom line (first :: rest) = tokensFrom reached after := by
  cases dashes : startsComment (first :: rest) with
  | true =>
    rcases startsComment_iff.mp dashes with ⟨tail, same⟩
    cases same
    rw [Splitter.partAt?_comment, Splitter.commentAt?] at taken
    split at taken
    · rename_i level body opened
      rcases Option.map_eq_some_iff.mp taken with ⟨⟨inside, left⟩, found, same⟩
      rcases Prod.mk.inj same with ⟨rfl, rfl⟩
      refine ⟨line + inside.count '\n', tokensFrom_congr ?_⟩
      rw [afterGap_comment, opened]
      simp only [found]
    · rename_i notOpened
      rcases Prod.mk.inj (Option.some.inj taken) with ⟨rfl, rfl⟩
      refine ⟨line, tokensFrom_congr ?_⟩
      rw [afterGap_comment, notOpened]
      simp only [splitting, decide_not]
  | false =>
    rw [Splitter.partAt?_of_noComment dashes] at taken
    split at taken
    · rename_i blank
      rcases Prod.mk.inj (Option.some.inj taken) with ⟨rfl, rfl⟩
      by_cases feed : first = '\n'
      · refine ⟨line + 1, tokensFrom_congr ?_⟩
        rw [afterGap_cons dashes, if_pos feed]
      · refine ⟨line, tokensFrom_congr ?_⟩
        rw [afterGap_cons dashes, if_neg feed, if_pos blank]
    · rcases Option.map_eq_some_iff.mp taken with ⟨⟨found, left⟩, read, same⟩
      rcases Prod.mk.inj same with ⟨rfl, rfl⟩
      cases gap

/-- Where a token stands nothing is passed over, and the token is read on
whatever line that is. -/
theorem tokenAt_of_partAt? {first : Char} {rest after : List Char} {token : Token}
    (taken : splitting.partAt? first rest = some (.token token, after)) (line : Nat) :
    afterGap line (first :: rest) = .ok (line, first :: rest) ∧
      ∃ reached, tokenAt line first rest = .ok (token, after, reached) := by
  rcases Splitter.token_of_partAt? taken with ⟨noComment, noBlank, read⟩
  exact ⟨afterGap_token noComment noBlank, tokenAt_eq_ok_iff.mpr (readToken?_eq_some_iff.mp read)⟩

private theorem tokensFrom_of_token {first : Char} {rest after : List Char} {token : Token}
    (taken : splitting.partAt? first rest = some (.token token, after)) (line : Nat) :
    ∃ reached,
      tokensFrom line (first :: rest) = (tokensFrom reached after).map (token :: ·) := by
  rcases tokenAt_of_partAt? taken line with ⟨stays, reached, found⟩
  refine ⟨reached, ?_⟩
  rw [tokensFrom_eq, stays]
  simp only [found]

private theorem tokensFrom_of_none {first : Char} {rest : List Char}
    (taken : splitting.partAt? first rest = none) (line : Nat) :
    ∃ fault, tokensFrom line (first :: rest) = .error fault := by
  cases dashes : startsComment (first :: rest) with
  | true =>
    rcases startsComment_iff.mp dashes with ⟨tail, same⟩
    cases same
    rw [Splitter.partAt?_comment, Splitter.commentAt?] at taken
    split at taken
    · rename_i level body opened
      have unclosed := Option.map_eq_none_iff.mp taken
      rw [tokensFrom_eq, afterGap_comment, opened]
      simp only [unclosed]
      exact ⟨_, rfl⟩
    · cases taken
  | false =>
    rw [Splitter.partAt?_of_noComment dashes] at taken
    split at taken
    · cases taken
    · rename_i noBlank
      have notRead : readToken? first rest = none := Option.map_eq_none_iff.mp taken
      rw [tokensFrom_token dashes (by simpa using noBlank)]
      cases found : tokenAt line first rest with
      | error fault => exact ⟨fault, rfl⟩
      | ok triple =>
        have read := readToken?_eq_some_iff.mpr (tokenAt_eq_ok_iff.mp ⟨_, found⟩)
        rw [notRead] at read
        cases read

/-- Splitting finds the tokens among the parts of a script, wherever its
lines begin to be counted. -/
theorem toOption_tokensFrom (line : Nat) (letters : List Char) :
    (tokensFrom line letters).toOption = splitting.tokens? letters := by
  generalize size : letters.length = bound
  induction bound using Nat.strongRecOn generalizing line letters with
  | ind bound inductionHypothesis =>
    subst size
    cases letters with
    | nil =>
      rw [Splitter.tokens?_nil, tokensFrom_eq, afterGap]
      rfl
    | cons first rest =>
      cases taken : splitting.partAt? first rest with
      | none =>
        rcases tokensFrom_of_none taken line with ⟨fault, failed⟩
        rw [failed, Splitter.tokens?_of_none taken]
        rfl
      | some pair =>
        rcases pair with ⟨part, after⟩
        have shorter := Splitter.length_lt_of_partAt? taken
        cases isToken : part.token? with
        | none =>
          rcases tokensFrom_of_gap taken isToken line with ⟨reached, passed⟩
          rw [passed, Splitter.tokens?_of_gap taken isToken]
          exact inductionHypothesis _ shorter reached after rfl
        | some token =>
          cases part <;> cases isToken
          rcases tokensFrom_of_token taken line with ⟨reached, passed⟩
          rw [passed, Splitter.tokens?_of_token taken,
            ← inductionHypothesis _ shorter reached after rfl]
          cases tokensFrom reached after <;> rfl

theorem toOption_eq_some_iff {Problem Result : Type} {outcome : Except Problem Result}
    {result : Result} : outcome.toOption = some result ↔ outcome = .ok result := by
  cases outcome <;> simp [Except.toOption]

theorem tokens_eq_ok_iff {letters : List Char} {read : List Token} :
    tokens letters = .ok read ↔ splitting.tokens? letters = some read := by
  rw [← toOption_tokensFrom 1, tokens, toOption_eq_some_iff]

end Lua

end LogPipeline
