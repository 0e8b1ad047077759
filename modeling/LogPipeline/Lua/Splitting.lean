import LogPipeline.Number.Digits
import LogPipeline.Lua.Token

namespace LogPipeline

namespace Lua

/-!
# Splitting a script into tokens

A script is split from left to right.  Between two tokens stand blanks, line
comments, which reach up to the next line feed, and long comments.  A token is
a word, a numeral, a short or long string, or the longest symbol that fits.
Every piece that is taken is a beginning of what was there, so the letters of
the script are the gaps and the tokens in turn.

Lines are counted by line feeds outside strings and inside long brackets, by
the breaks after a backslash and by the line feeds that `\z` skips.
-/

def isBlank (letter : Char) : Bool :=
  letter = ' ' || letter = '\t' || letter = '\n' || letter = '\r' ||
    letter = '\x0b' || letter = '\x0c'

def isNameStart (letter : Char) : Bool :=
  ('a' ≤ letter && letter ≤ 'z') || ('A' ≤ letter && letter ≤ 'Z') || letter = '_'

def isNamePart (letter : Char) : Bool :=
  isNameStart letter || Digits.isDecimal letter

def isBreak (letter : Char) : Bool :=
  letter = '\n' || letter = '\r'

/-- The level of a long bracket that opens at the start of the letters, and
what follows the opening. -/
def longOpening? : List Char → Option (Nat × List Char)
  | '[' :: rest =>
    match rest.dropWhile (· = '=') with
    | '[' :: body => some ((rest.takeWhile (· = '=')).length, body)
    | _ => none
  | _ => none

/-- What closes a long bracket of a level, after its first bracket. -/
def closingTail (level : Nat) : List Char :=
  List.replicate level '=' ++ [']']

/-- The letters of a long bracket of a level up to and including its closing,
and what follows. -/
def untilClosing? (level : Nat) : List Char → Option (List Char × List Char)
  | [] => none
  | letter :: rest =>
    if letter = ']' && rest.take (level + 1) = closingTail level then
      some (letter :: rest.take (level + 1), rest.drop (level + 1))
    else
      (untilClosing? level rest).map fun (inside, after) => (letter :: inside, after)

theorem append_of_untilClosing? {level : Nat} {letters inside after : List Char}
    (found : untilClosing? level letters = some (inside, after)) :
    inside ++ after = letters := by
  induction letters generalizing inside after with
  | nil => simp [untilClosing?] at found
  | cons letter rest inductionHypothesis =>
    unfold untilClosing? at found
    split at found
    · obtain ⟨rfl, rfl⟩ := Prod.mk.inj (Option.some.inj found)
      simp
    · obtain ⟨⟨inner, tail⟩, foundInner, same⟩ := Option.map_eq_some_iff.mp found
      obtain ⟨rfl, rfl⟩ := Prod.mk.inj same
      simp [inductionHypothesis foundInner]

/-- The letters of a long bracket of a level, given those after its opening. -/
def longLetters (level : Nat) (inside : List Char) : List Char :=
  '[' :: (List.replicate level '=' ++ '[' :: inside)

theorem longLetters_append (level : Nat) (inside after : List Char) :
    longLetters level inside ++ after = longLetters level (inside ++ after) := by
  simp [longLetters]

theorem longLetters_of_longOpening? {letters body : List Char} {level : Nat}
    (opened : longOpening? letters = some (level, body)) :
    longLetters level body = letters := by
  unfold longOpening? at opened
  split at opened
  · rename_i rest
    split at opened
    · rename_i inner stripped
      obtain ⟨rfl, rfl⟩ := Prod.mk.inj (Option.some.inj opened)
      have whole := List.takeWhile_append_dropWhile (p := (· = '=')) (l := rest)
      rw [stripped] at whole
      have equals : List.replicate (rest.takeWhile (· = '=')).length '=' =
          rest.takeWhile (· = '=') := by
        symm
        rw [List.eq_replicate_iff]
        refine ⟨rfl, fun letter member => ?_⟩
        have marks := List.all_takeWhile (p := (· = '=')) (l := rest)
        simpa using List.all_eq_true.mp marks letter member
      rw [longLetters, equals, whole]
    · simp at opened
  · simp at opened

theorem suffix_of_longOpening? {letters body : List Char} {level : Nat}
    (opened : longOpening? letters = some (level, body)) :
    body.length < letters.length ∧ body <:+ letters := by
  have whole := longLetters_of_longOpening? opened
  subst whole
  refine ⟨by simp only [longLetters, List.length_cons, List.length_append]; omega, ?_⟩
  exact ((List.suffix_cons '[' body).trans (List.suffix_append _ _)).trans (List.suffix_cons '[' _)

theorem suffix_of_untilClosing? {level : Nat} {letters inside after : List Char}
    (found : untilClosing? level letters = some (inside, after)) :
    after <:+ letters :=
  ⟨inside, append_of_untilClosing? found⟩

/-- What comes after a gap: the line that is reached and the letters that are
left, which begin with a token unless there are none. -/
def afterGap (line : Nat) (letters : List Char) : Except Fault (Nat × List Char) :=
  match letters with
  | [] => .ok (line, [])
  | '-' :: '-' :: rest =>
    match _opened : longOpening? rest with
    | some (level, body) =>
      match _found : untilClosing? level body with
      | none => .error { line := line + body.count '\n', cause := .unfinishedLongComment }
      | some (inside, after) => afterGap (line + inside.count '\n') after
    | none => afterGap line (rest.dropWhile (· ≠ '\n'))
  | letter :: rest =>
    if letter = '\n' then afterGap (line + 1) rest
    else if isBlank letter then afterGap line rest
    else .ok (line, letter :: rest)
termination_by letters.length
decreasing_by
  · have shorter := (suffix_of_longOpening? _opened).1
    have notLonger := (suffix_of_untilClosing? _found).length_le
    simp only [List.length_cons]
    omega
  · have notLonger := (List.dropWhile_suffix (l := rest) (· ≠ '\n')).length_le
    simp only [List.length_cons]
    omega
  · simp
  · simp

theorem suffix_of_afterGap {line : Nat} {letters : List Char} {reached : Nat}
    {rest : List Char} (skipped : afterGap line letters = .ok (reached, rest)) :
    rest <:+ letters := by
  fun_induction afterGap line letters generalizing reached rest with
  | case1 =>
    obtain ⟨rfl, rfl⟩ := Prod.mk.inj (Except.ok.inj skipped)
    exact List.suffix_refl _
  | case2 => simp at skipped
  | case3 line inner level body opened inside after found inductionHypothesis =>
    exact (((inductionHypothesis skipped).trans (suffix_of_untilClosing? found)).trans
      (suffix_of_longOpening? opened).2).trans
        ((List.suffix_cons '-' inner).trans (List.suffix_cons '-' _))
  | case4 line inner notOpened inductionHypothesis =>
    exact ((inductionHypothesis skipped).trans (List.dropWhile_suffix _)).trans
      ((List.suffix_cons '-' inner).trans (List.suffix_cons '-' _))
  | case5 line inner notComment inductionHypothesis =>
    exact (inductionHypothesis skipped).trans (List.suffix_cons _ inner)
  | case6 line letter inner notComment notFeed blank inductionHypothesis =>
    exact (inductionHypothesis skipped).trans (List.suffix_cons letter inner)
  | case7 =>
    obtain ⟨rfl, rfl⟩ := Prod.mk.inj (Except.ok.inj skipped)
    exact List.suffix_refl _

/-- Where the reading of a short string stands between two letters. -/
inductive StringState where
  /-- Outside any escape. -/
  | plain
  /-- After a backslash. -/
  | escaped
  /-- After a backslash and one break; the other kind of break would belong to it. -/
  | broken (first : Char)
  /-- After `\z`, which swallows the blanks that follow. -/
  | skipping
deriving DecidableEq

/-- What a letter of a short string does: it goes on in a state and a line, it
closes the string, or it has no place there. -/
inductive StringStep where
  | proceed (state : StringState) (line : Nat)
  | close
  | refuse

/-- What a letter does outside any escape. -/
def plainStep (quote : Char) (line : Nat) (letter : Char) : StringStep :=
  if isBreak letter then .refuse
  else if letter = '\\' then .proceed .escaped line
  else if letter = quote then .close
  else .proceed .plain line

/-- What a letter of a short string does. -/
def stringStep (quote : Char) (state : StringState) (line : Nat) (letter : Char) : StringStep :=
  match state with
  | .plain => plainStep quote line letter
  | .escaped =>
    if isBreak letter then .proceed (.broken letter) (line + 1)
    else if letter = 'z' then .proceed .skipping line
    else .proceed .plain line
  | .broken first =>
    if isBreak letter && letter ≠ first then .proceed .plain line
    else plainStep quote line letter
  | .skipping =>
    if letter = '\n' then .proceed .skipping (line + 1)
    else if isBlank letter then .proceed .skipping line
    else plainStep quote line letter

/-- The letters of a short string from a state on, its closing quote included,
what follows it, and the line that is reached. -/
def stringTail (quote : Char) (state : StringState) (line : Nat) :
    List Char → Except Fault (List Char × List Char × Nat)
  | [] => .error { line := line, cause := .unfinishedString }
  | letter :: rest =>
    match stringStep quote state line letter with
    | .refuse => .error { line := line, cause := .unfinishedString }
    | .close => .ok ([letter], rest, line)
    | .proceed next reached =>
      match stringTail quote next reached rest with
      | .error fault => .error fault
      | .ok (inside, after, last) => .ok (letter :: inside, after, last)

theorem append_of_stringTail {quote : Char} {state : StringState} {line : Nat}
    {letters inside after : List Char} {last : Nat}
    (taken : stringTail quote state line letters = .ok (inside, after, last)) :
    inside ++ after = letters := by
  induction letters generalizing state line inside with
  | nil => simp [stringTail] at taken
  | cons letter rest inductionHypothesis =>
    unfold stringTail at taken
    split at taken
    · simp at taken
    · cases taken
      simp
    · split at taken
      · simp at taken
      · rename_i takenInner
        cases taken
        simp [inductionHypothesis takenInner]

/-- The letters that can go on a numeral, and what follows them.  A sign goes
on a numeral only directly after an exponent mark. -/
def numeralTail (marks : List Char) (afterMark : Bool) : List Char → List Char × List Char
  | [] => ([], [])
  | letter :: rest =>
    if afterMark && (letter = '+' || letter = '-') then
      let (inside, after) := numeralTail marks false rest
      (letter :: inside, after)
    else if marks.contains letter then
      let (inside, after) := numeralTail marks true rest
      (letter :: inside, after)
    else if Digits.isHexadecimal letter || letter = '.' then
      let (inside, after) := numeralTail marks false rest
      (letter :: inside, after)
    else ([], letter :: rest)

theorem append_numeralTail (marks : List Char) (afterMark : Bool) (letters : List Char) :
    (numeralTail marks afterMark letters).1 ++ (numeralTail marks afterMark letters).2 =
      letters := by
  induction letters generalizing afterMark with
  | nil => simp [numeralTail]
  | cons letter rest inductionHypothesis =>
    unfold numeralTail
    split
    · simp [inductionHypothesis]
    · split
      · simp [inductionHypothesis]
      · split
        · simp [inductionHypothesis]
        · simp

theorem numeralTail_ne_nil {marks : List Char} {afterMark : Bool} {first : Char}
    {rest : List Char} (fits : Digits.isHexadecimal first || first = '.') :
    (numeralTail marks afterMark (first :: rest)).1 ≠ [] := by
  unfold numeralTail
  split
  · simp
  · split
    · simp
    · simp

def isHexadecimalStart : List Char → Bool
  | '0' :: mark :: _ => mark = 'x' || mark = 'X'
  | _ => false

/-- The letters of a numeral at the start of letters, and what follows. -/
def numeralParts (letters : List Char) : List Char × List Char :=
  if isHexadecimalStart letters then
    let (inside, after) := numeralTail ['P', 'p'] false (letters.drop 2)
    (letters.take 2 ++ inside, after)
  else
    numeralTail ['E', 'e'] false letters

theorem append_numeralParts (letters : List Char) :
    (numeralParts letters).1 ++ (numeralParts letters).2 = letters := by
  unfold numeralParts
  split
  · simp [append_numeralTail]
  · exact append_numeralTail _ _ _

theorem numeralParts_ne_nil {first : Char} {rest : List Char}
    (fits : Digits.isHexadecimal first || first = '.') :
    (numeralParts (first :: rest)).1 ≠ [] := by
  unfold numeralParts
  split
  · simp
  · exact numeralTail_ne_nil fits

/-- Whether the letters of a numeral are in order: anything after the mark of
base sixteen, else digits, at most one point and exponents. -/
def isNumeral (letters : List Char) : Bool :=
  if isHexadecimalStart letters then 2 < letters.length
  else
    letters.all (fun letter =>
      Digits.isDecimal letter || ['.', 'e', 'E', '+', '-'].contains letter) &&
    letters.count '.' ≤ 1

/-- The numeral at the start of letters, and what follows. -/
def numeralAt (line : Nat) (letters : List Char) : Except Fault (Token × List Char) :=
  let (inside, after) := numeralParts letters
  if after.head?.any isNamePart || !isNumeral inside then
    .error { line := line, cause := .malformedNumber }
  else .ok ({ kind := .number, letters := inside }, after)

/-- The word at the start of letters, and what follows. -/
def wordAt (letters : List Char) : Token × List Char :=
  let word := letters.takeWhile isNamePart
  ({ kind := if isKeyword word then .keyword else .name, letters := word },
    letters.dropWhile isNamePart)

/-- The symbol at the start of letters, and what follows. -/
def symbolAt (line : Nat) (first : Char) (rest : List Char) : Except Fault (Token × List Char) :=
  match symbols.find? fun symbol => symbol.toList.isPrefixOf (first :: rest) with
  | some symbol =>
    .ok ({ kind := .symbol, letters := symbol.toList }, (first :: rest).drop symbol.toList.length)
  | none => .error { line := line, cause := .unexpectedSymbol first }

/-- The long string at the start of letters where one opens there, else the
symbol; what follows, and the line that is reached. -/
def bracketAt (line : Nat) (rest : List Char) : Except Fault (Token × List Char × Nat) :=
  match longOpening? ('[' :: rest) with
  | some (level, body) =>
    match untilClosing? level body with
    | none => .error { line := line + body.count '\n', cause := .unfinishedLongString }
    | some (inside, after) =>
      .ok ({ kind := .string
             letters := '[' :: (List.replicate level '=' ++ '[' :: inside) },
        after, line + inside.count '\n')
  | none =>
    match rest with
    | '=' :: _ => .error { line := line, cause := .invalidLongDelimiter }
    | _ => .ok ({ kind := .symbol, letters := ['['] }, rest, line)

/-- The token at the start of letters that begin with no gap, what follows it,
and the line that is reached. -/
def tokenAt (line : Nat) (first : Char) (rest : List Char) :
    Except Fault (Token × List Char × Nat) :=
  if isNameStart first then
    let (token, after) := wordAt (first :: rest)
    .ok (token, after, line)
  else if Digits.isDecimal first || (first = '.' && (rest.head?.any Digits.isDecimal)) then
    (numeralAt line (first :: rest)).map fun (token, after) => (token, after, line)
  else if first = '"' || first = '\'' then
    (stringTail first .plain line rest).map fun (inside, after, reached) =>
      ({ kind := .string, letters := first :: inside }, after, reached)
  else if first = '[' then
    bracketAt line rest
  else
    (symbolAt line first rest).map fun (token, after) => (token, after, line)

theorem symbol_ne_nil : ∀ symbol ∈ symbols, symbol.toList ≠ [] := by decide

theorem append_of_symbolAt {line : Nat} {first : Char} {rest after : List Char} {token : Token}
    (taken : symbolAt line first rest = .ok (token, after)) :
    token.letters ++ after = first :: rest ∧ token.letters ≠ [] := by
  unfold symbolAt at taken
  split at taken
  · rename_i symbol found
    cases taken
    have fits : symbol.toList <+: first :: rest := by
      simpa using List.find?_some found
    exact ⟨List.prefix_iff_eq_append.mp fits,
      symbol_ne_nil symbol (List.mem_of_find?_eq_some found)⟩
  · simp at taken

theorem append_of_bracketAt {line : Nat} {rest after : List Char} {token : Token} {reached : Nat}
    (taken : bracketAt line rest = .ok (token, after, reached)) :
    token.letters ++ after = '[' :: rest ∧ token.letters ≠ [] := by
  unfold bracketAt at taken
  split at taken
  · rename_i level body opened
    split at taken
    · simp at taken
    · rename_i inside tail found
      cases taken
      refine ⟨?_, by simp⟩
      have joined := append_of_untilClosing? found
      have whole := longLetters_of_longOpening? opened
      rw [← joined, ← longLetters_append] at whole
      exact whole
  · split at taken
    · simp at taken
    · cases taken
      simp

theorem append_of_numeralAt {line : Nat} {first : Char} {rest after : List Char} {token : Token}
    (fits : Digits.isHexadecimal first || first = '.')
    (taken : numeralAt line (first :: rest) = .ok (token, after)) :
    token.letters ++ after = first :: rest ∧ token.letters ≠ [] := by
  unfold numeralAt at taken
  simp only at taken
  split at taken
  · simp at taken
  · cases taken
    exact ⟨append_numeralParts _, numeralParts_ne_nil fits⟩

theorem append_of_tokenAt {line : Nat} {first : Char} {rest after : List Char} {token : Token}
    {reached : Nat} (taken : tokenAt line first rest = .ok (token, after, reached)) :
    token.letters ++ after = first :: rest ∧ token.letters ≠ [] := by
  unfold tokenAt at taken
  split at taken
  · rename_i nameStart
    cases taken
    refine ⟨List.takeWhile_append_dropWhile, ?_⟩
    simp [isNamePart, nameStart]
  · split at taken
    · rename_i notName numeralStart
      cases numeral : numeralAt line (first :: rest) with
      | error fault => simp [numeral, Except.map] at taken
      | ok pair =>
        obtain ⟨found, tail⟩ := pair
        rw [numeral] at taken
        cases taken
        refine append_of_numeralAt ?_ numeral
        simp only [Bool.or_eq_true, Bool.and_eq_true, decide_eq_true_eq] at numeralStart ⊢
        rcases numeralStart with isDigit | ⟨isPoint, _⟩
        · left
          simp only [Digits.isDecimal, Bool.and_eq_true, decide_eq_true_eq] at isDigit
          simp [Digits.isHexadecimal, Digits.value?, isDigit]
        · exact Or.inr isPoint
    · split at taken
      · cases short : stringTail first .plain line rest with
        | error fault => simp [short, Except.map] at taken
        | ok triple =>
          obtain ⟨inside, tail, last⟩ := triple
          rw [short] at taken
          cases taken
          simp [append_of_stringTail short]
      · split at taken
        · rename_i isBracket
          subst isBracket
          exact append_of_bracketAt taken
        · cases symbol : symbolAt line first rest with
          | error fault => simp [symbol, Except.map] at taken
          | ok pair =>
            obtain ⟨found, tail⟩ := pair
            rw [symbol] at taken
            cases taken
            exact append_of_symbolAt symbol

/-- The tokens of letters that are reached on a line. -/
def tokensFrom (line : Nat) (letters : List Char) : Except Fault (List Token) :=
  match _skipped : afterGap line letters with
  | .error fault => .error fault
  | .ok (_, []) => .ok []
  | .ok (reached, first :: rest) =>
    match _taken : tokenAt reached first rest with
    | .error fault => .error fault
    | .ok (token, after, last) =>
      match tokensFrom last after with
      | .error fault => .error fault
      | .ok tokens => .ok (token :: tokens)
termination_by letters.length
decreasing_by
  have notLonger := (suffix_of_afterGap _skipped).length_le
  obtain ⟨whole, nonempty⟩ := append_of_tokenAt _taken
  have lengths := congrArg List.length whole
  have positive := List.length_pos_iff.mpr nonempty
  simp only [List.length_append] at lengths
  omega

/-- The tokens of a script. -/
def tokens (letters : List Char) : Except Fault (List Token) :=
  tokensFrom 1 letters

end Lua

end LogPipeline
