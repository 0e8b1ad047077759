import LogPipeline.Lua.Splitting
import LogPipeline.Proofs.Text.Spans

namespace LogPipeline

namespace Lua

/-!
# Where a token ends

A token that stands at the start of letters is read by looking at one letter
past its end and no further.  Which letters would go on with a token depends on
the token alone: a letter of a name goes on with a word, a sign goes on with a
numeral whose last letter marks an exponent, and a letter goes on with a symbol
where the two together begin another symbol, a comment, a long bracket or a
numeral.

A token that is read alone is therefore read in front of any letters whose
first does not go on with it, and conversely every token of a script is read
alone as itself.
-/

/-- The token at the start of letters that begin with no gap, and what follows
it.  No line is counted. -/
def readToken? (first : Char) (rest : List Char) : Option (Token × List Char) :=
  match tokenAt 1 first rest with
  | .ok (token, after, _) => some (token, after)
  | .error _ => none

def exponentMarks (letters : List Char) : List Char :=
  if isHexadecimalStart letters then ['P', 'p'] else ['E', 'e']

/-- Whether a letter would go on with the letters of a numeral. -/
def goesOnNumber (letters : List Char) (letter : Char) : Bool :=
  isNamePart letter || letter = '.' ||
    ((letter = '+' || letter = '-') && letters.getLast?.any (exponentMarks letters).contains)

/-- Whether a letter would go on with the letters of a symbol. -/
def goesOnSymbol (letters : List Char) (letter : Char) : Bool :=
  symbols.any (fun symbol => symbol.toList = letters ++ [letter]) ||
    (letters = ['-'] && letter = '-') ||
    (letters = ['['] && (letter = '[' || letter = '=')) ||
    (letters = ['.'] && Digits.isDecimal letter)

/-- Whether a letter directly after a token would be read together with it. -/
def Token.goesOn (token : Token) (letter : Char) : Bool :=
  match token.kind with
  | .name => isNamePart letter
  | .keyword => isNamePart letter
  | .number => goesOnNumber token.letters letter
  | .string => false
  | .symbol => goesOnSymbol token.letters letter

/-- The letters after a token do not go on with it. -/
def Token.EndsBefore (token : Token) (after : List Char) : Prop :=
  ∀ letter ∈ after.head?, token.goesOn letter = false

/-- The letters of a token, read alone, are that token. -/
def Token.StandsAlone (token : Token) : Prop :=
  ∃ first tail, token.letters = first :: tail ∧ readToken? first tail = some (token, [])

theorem Token.endsBefore_nil (token : Token) : token.EndsBefore [] := by
  intro letter member
  cases member

theorem Token.endsBefore_cons {token : Token} {letter : Char} {rest : List Char} :
    token.EndsBefore (letter :: rest) ↔ token.goesOn letter = false := by
  simp [Token.EndsBefore]

theorem Token.endsBefore_append {token : Token} {after : List Char} (nonempty : after ≠ [])
    (rest : List Char) : token.EndsBefore (after ++ rest) ↔ token.EndsBefore after := by
  cases after with
  | nil => exact absurd rfl nonempty
  | cons letter tail => simp [Token.EndsBefore]

/-! ## Short strings -/

/-- Whether letters are the rest of a short string from a state on, up to its
closing quote and no further. -/
def isStringRest (quote : Char) (state : StringState) : List Char → Bool
  | [] => false
  | letter :: rest =>
    match stringStep quote state 1 letter with
    | .refuse => false
    | .close => rest.isEmpty
    | .proceed next _ => isStringRest quote next rest

theorem isStringRest_plain_cons (quote letter : Char) (rest : List Char) :
    isStringRest quote .plain (letter :: rest) =
      if isBreak letter then false
      else if letter = '\\' then isStringRest quote .escaped rest
      else if letter = quote then rest.isEmpty
      else isStringRest quote .plain rest := by
  rw [isStringRest, stringStep, plainStep]
  by_cases isLineBreak : isBreak letter = true
  · simp only [if_pos isLineBreak]
  by_cases escape : letter = '\\'
  · simp only [if_neg isLineBreak, if_pos escape]
  by_cases closes : letter = quote
  · simp only [if_neg isLineBreak, if_neg escape, if_pos closes]
  · simp only [if_neg isLineBreak, if_neg escape, if_neg closes]

theorem isStringRest_escaped_cons (quote letter : Char) (rest : List Char) :
    isStringRest quote .escaped (letter :: rest) =
      if isBreak letter then isStringRest quote (.broken letter) rest
      else if letter = 'z' then isStringRest quote .skipping rest
      else isStringRest quote .plain rest := by
  rw [isStringRest, stringStep]
  by_cases isLineBreak : isBreak letter = true
  · simp only [if_pos isLineBreak]
  by_cases skips : letter = 'z'
  · simp only [if_neg isLineBreak, if_pos skips]
  · simp only [if_neg isLineBreak, if_neg skips]

theorem isStringRest_broken_cons (quote first letter : Char) (rest : List Char) :
    isStringRest quote (.broken first) (letter :: rest) =
      if isBreak letter && letter ≠ first then isStringRest quote .plain rest
      else isStringRest quote .plain (letter :: rest) := by
  rw [isStringRest, stringStep]
  by_cases pairs : (isBreak letter && decide (letter ≠ first)) = true
  · simp only [if_pos pairs]
  · simp only [if_neg pairs]
    rfl

theorem isStringRest_skipping_cons (quote letter : Char) (rest : List Char) :
    isStringRest quote .skipping (letter :: rest) =
      if isBlank letter then isStringRest quote .skipping rest
      else isStringRest quote .plain (letter :: rest) := by
  rw [isStringRest, stringStep]
  by_cases feed : letter = '\n'
  · subst feed
    rfl
  by_cases blank : isBlank letter = true
  · simp only [if_neg feed, if_pos blank]
  · simp only [if_neg feed, if_neg blank]
    rfl

private theorem stringStep_line (quote : Char) (state : StringState) (line other : Nat)
    (letter : Char) :
    match stringStep quote state line letter with
    | .refuse => stringStep quote state other letter = .refuse
    | .close => stringStep quote state other letter = .close
    | .proceed next _ => ∃ reached, stringStep quote state other letter = .proceed next reached := by
  cases state <;> grind [stringStep, plainStep]

/-- What is taken from a state on is the rest of a string. -/
theorem isStringRest_of_stringTail {quote : Char} {state : StringState} {line : Nat}
    {letters inside after : List Char} {last : Nat}
    (taken : stringTail quote state line letters = .ok (inside, after, last)) :
    isStringRest quote state inside = true := by
  induction letters generalizing state line inside with
  | nil => simp [stringTail] at taken
  | cons letter rest inductionHypothesis =>
    have sameStep := stringStep_line quote state line 1 letter
    rw [stringTail] at taken
    split at taken
    · simp at taken
    · rename_i closes
      rw [closes] at sameStep
      cases taken
      simp [isStringRest, sameStep]
    · rename_i next reached step
      rw [step] at sameStep
      rcases sameStep with ⟨other, sameStep⟩
      split at taken
      · simp at taken
      · rename_i inner tail line' takenInner
        cases taken
        simp [isStringRest, sameStep, inductionHypothesis takenInner]

/-- The rest of a string is taken from its state on, whatever follows it and
on whatever line. -/
theorem stringTail_of_isStringRest {quote : Char} {state : StringState} {inside : List Char}
    (rest : isStringRest quote state inside = true) (line : Nat) (after : List Char) :
    ∃ last, stringTail quote state line (inside ++ after) = .ok (inside, after, last) := by
  induction inside generalizing state line with
  | nil => simp [isStringRest] at rest
  | cons letter inner inductionHypothesis =>
    have sameStep := stringStep_line quote state 1 line letter
    rw [isStringRest] at rest
    split at rest
    · simp at rest
    · rename_i closes
      rw [closes] at sameStep
      have empty : inner = [] := by simpa using rest
      subst empty
      exact ⟨line, by simp [stringTail, sameStep]⟩
    · rename_i next reached step
      rw [step] at sameStep
      rcases sameStep with ⟨other, sameStep⟩
      rcases inductionHypothesis rest other with ⟨last, takenInner⟩
      exact ⟨last, by simp [stringTail, sameStep, takenInner]⟩

/-! ## Numerals -/

/-- Whether the next letter of a numeral comes after an exponent mark. -/
def endsInMark (marks : List Char) (afterMark : Bool) (letters : List Char) : Bool :=
  match letters.getLast? with
  | none => afterMark
  | some letter => marks.contains letter

/-- Whether a letter goes on with a numeral that has the given marks. -/
def continuesNumeral (marks : List Char) (afterMark : Bool) (letter : Char) : Bool :=
  (afterMark && (letter = '+' || letter = '-')) || marks.contains letter ||
    Digits.isHexadecimal letter || letter = '.'

def MarkNoSign (marks : List Char) : Prop :=
  ∀ letter, letter = '+' ∨ letter = '-' → marks.contains letter = false

theorem exponentMarks_noSign (letters : List Char) : MarkNoSign (exponentMarks letters) := by
  intro letter isSign
  unfold exponentMarks
  rcases isSign with rfl | rfl <;> split <;> decide

theorem numeralTail_cons {marks : List Char} (noSign : MarkNoSign marks) (afterMark : Bool)
    (letter : Char) (rest : List Char) :
    numeralTail marks afterMark (letter :: rest) =
      if continuesNumeral marks afterMark letter then
        (letter :: (numeralTail marks (marks.contains letter) rest).1,
          (numeralTail marks (marks.contains letter) rest).2)
      else ([], letter :: rest) := by
  have notMark := noSign letter
  rw [numeralTail]
  unfold continuesNumeral
  by_cases isMark : marks.contains letter = true
  · have notSign : ¬ (letter = '+' ∨ letter = '-') := fun isSign =>
      Bool.false_ne_true ((notMark isSign).symm.trans isMark)
    simp_all
  · by_cases isSign : letter = '+' ∨ letter = '-'
    · cases afterMark <;> simp_all
    · simp_all

theorem endsInMark_cons (marks : List Char) (afterMark : Bool) (letter : Char)
    (rest : List Char) :
    endsInMark marks afterMark (letter :: rest) =
      endsInMark marks (marks.contains letter) rest := by
  cases rest with
  | nil => rfl
  | cons next tail =>
    have isLast := List.getLast?_eq_some_getLast (List.cons_ne_nil next tail)
    simp only [endsInMark, List.getLast?_cons_cons, isLast]

/-- What is taken as a numeral is taken alone as well, and the letter after it
does not go on with it. -/
theorem numeralTail_alone {marks : List Char} (noSign : MarkNoSign marks) {afterMark : Bool}
    {letters inside after : List Char}
    (taken : numeralTail marks afterMark letters = (inside, after)) :
    numeralTail marks afterMark inside = (inside, []) ∧
      ∀ letter ∈ after.head?,
        continuesNumeral marks (endsInMark marks afterMark inside) letter = false := by
  induction letters generalizing afterMark inside with
  | nil =>
    cases taken
    exact ⟨rfl, by simp⟩
  | cons letter rest inductionHypothesis =>
    rw [numeralTail_cons noSign] at taken
    split at taken
    · rename_i fits
      rcases Prod.mk.inj taken with ⟨rfl, rfl⟩
      rcases @inductionHypothesis (marks.contains letter) _ rfl with ⟨alone, stops⟩
      rw [numeralTail_cons noSign, if_pos fits, alone, endsInMark_cons]
      exact ⟨rfl, stops⟩
    · rename_i stops
      rcases Prod.mk.inj taken with ⟨rfl, rfl⟩
      exact ⟨rfl, by simpa [endsInMark] using stops⟩

/-- Letters that go on with a numeral are taken after it. -/
theorem numeralTail_append {marks : List Char} (noSign : MarkNoSign marks) {afterMark : Bool}
    {inside : List Char} (alone : numeralTail marks afterMark inside = (inside, []))
    (after : List Char) :
    numeralTail marks afterMark (inside ++ after) =
      (inside ++ (numeralTail marks (endsInMark marks afterMark inside) after).1,
        (numeralTail marks (endsInMark marks afterMark inside) after).2) := by
  induction inside generalizing afterMark with
  | nil => simp [endsInMark]
  | cons letter rest inductionHypothesis =>
    rw [numeralTail_cons noSign] at alone
    split at alone
    · rename_i fits
      rcases Prod.mk.inj alone with ⟨sameInside, sameAfter⟩
      have tailAlone : numeralTail marks (marks.contains letter) rest = (rest, []) :=
        Prod.ext (List.cons.inj sameInside).2 sameAfter
      rw [List.cons_append, numeralTail_cons noSign, if_pos fits,
        inductionHypothesis tailAlone, endsInMark_cons]
      simp
    · simp at alone

theorem numeralTail_stops {marks : List Char} (noSign : MarkNoSign marks) {afterMark : Bool}
    {after : List Char}
    (stops : ∀ letter ∈ after.head?, continuesNumeral marks afterMark letter = false) :
    numeralTail marks afterMark after = ([], after) := by
  cases after with
  | nil => rfl
  | cons letter rest =>
    rw [numeralTail_cons noSign, if_neg]
    simpa using stops letter (by simp)

def baseSize (letters : List Char) : Nat :=
  if isHexadecimalStart letters then 2 else 0

theorem baseSize_le_length (letters : List Char) : baseSize letters ≤ letters.length := by
  unfold baseSize
  split
  · rename_i hexadecimal
    unfold isHexadecimalStart at hexadecimal
    split at hexadecimal <;> simp_all
  · exact Nat.zero_le _

theorem numeralParts_eq (letters : List Char) :
    numeralParts letters =
      (letters.take (baseSize letters) ++
          (numeralTail (exponentMarks letters) false (letters.drop (baseSize letters))).1,
        (numeralTail (exponentMarks letters) false (letters.drop (baseSize letters))).2) := by
  unfold numeralParts baseSize exponentMarks
  split <;> simp

theorem isHexadecimalStart_singleton (letter : Char) : isHexadecimalStart [letter] = false := by
  unfold isHexadecimalStart
  split <;> simp_all

theorem isHexadecimalStart_cons_cons (zero mark : Char) (rest : List Char) :
    isHexadecimalStart (zero :: mark :: rest) = (zero = '0' && (mark = 'x' || mark = 'X')) := by
  unfold isHexadecimalStart
  split <;> simp_all

theorem isHexadecimalStart_iff {letters : List Char} :
    isHexadecimalStart letters = true ↔
      ∃ mark rest, letters = '0' :: mark :: rest ∧ (mark = 'x' ∨ mark = 'X') := by
  unfold isHexadecimalStart
  split
  · simp
  · rename_i noZero
    simp only [Bool.false_eq_true, false_iff, not_exists, not_and]
    exact fun mark rest same => absurd same (noZero mark rest)

theorem isHexadecimalStart_append {inside after : List Char} (nonempty : inside ≠ [])
    (stops : ∀ letter ∈ after.head?, isNamePart letter = false) :
    isHexadecimalStart (inside ++ after) = isHexadecimalStart inside := by
  match inside, after with
  | [], _ => exact absurd rfl nonempty
  | [zero], [] => rfl
  | [zero], mark :: rest =>
    have notPart := stops mark (by simp)
    have notX : mark ≠ 'x' := fun isX => by subst isX; revert notPart; decide
    have notX' : mark ≠ 'X' := fun isX => by subst isX; revert notPart; decide
    rw [List.singleton_append, isHexadecimalStart_cons_cons, isHexadecimalStart_singleton]
    simp [notX, notX']
  | zero :: mark :: rest, after =>
    rw [List.cons_append, List.cons_append, isHexadecimalStart_cons_cons,
      isHexadecimalStart_cons_cons]

theorem isNamePart_of_isHexadecimal {letter : Char}
    (digit : Digits.isHexadecimal letter = true) : isNamePart letter = true := by
  unfold Digits.isHexadecimal Digits.value? at digit
  unfold isNamePart isNameStart Digits.isDecimal
  split at digit
  · rename_i decimal
    simp [decimal]
  · split at digit
    · rename_i lower
      have upTo : letter ≤ 'z' := Char.le_trans lower.2 (by decide)
      simp [lower.1, upTo]
    · split at digit
      · rename_i upper
        have upTo : letter ≤ 'Z' := Char.le_trans upper.2 (by decide)
        simp [upper.1, upTo]
      · simp at digit

theorem goesOnNumber_eq_false_iff {letters : List Char} {letter : Char} :
    goesOnNumber letters letter = false ↔
      isNamePart letter = false ∧
        continuesNumeral (exponentMarks letters)
          (letters.getLast?.any (exponentMarks letters).contains) letter = false := by
  have partOfMark : isNamePart letter = false → (exponentMarks letters).contains letter = false := by
    intro notPart
    unfold exponentMarks
    cases same : (if isHexadecimalStart letters then ['P', 'p'] else ['E', 'e']).contains letter with
    | false => rfl
    | true =>
      split at same <;> simp only [List.contains_cons, Bool.or_eq_true, beq_iff_eq,
        List.contains_nil, Bool.false_eq_true, or_false] at same <;>
        rcases same with rfl | rfl <;> revert notPart <;> decide
  have partOfDigit : isNamePart letter = false → Digits.isHexadecimal letter = false := by
    intro notPart
    cases digit : Digits.isHexadecimal letter with
    | false => rfl
    | true => exact absurd (isNamePart_of_isHexadecimal digit) (by simp [notPart])
  unfold goesOnNumber continuesNumeral
  constructor
  · intro stops
    simp only [Bool.or_eq_false_iff] at stops
    rcases stops with ⟨⟨notPart, notPoint⟩, notSign⟩
    simp only [partOfMark notPart, partOfDigit notPart, notPart, notPoint, Bool.or_false,
      true_and]
    rw [Bool.and_comm]
    exact notSign
  · rintro ⟨notPart, stops⟩
    simp only [Bool.or_eq_false_iff] at stops
    rcases stops with ⟨⟨⟨notSign, -⟩, -⟩, notPoint⟩
    simp only [notPart, notPoint, Bool.or_false, Bool.false_or]
    rw [Bool.and_comm]
    exact notSign

/-- A numeral is taken in front of letters exactly if it is taken alone and
the first of them does not go on with it. -/
theorem numeralTail_append_iff {marks : List Char} (noSign : MarkNoSign marks)
    {afterMark : Bool} {inside after : List Char} :
    numeralTail marks afterMark (inside ++ after) = (inside, after) ↔
      numeralTail marks afterMark inside = (inside, []) ∧
        ∀ letter ∈ after.head?,
          continuesNumeral marks (endsInMark marks afterMark inside) letter = false := by
  constructor
  · exact numeralTail_alone noSign
  · rintro ⟨alone, stops⟩
    rw [numeralTail_append noSign alone, numeralTail_stops noSign stops]
    simp

theorem numeralParts_append_iff {inside after : List Char} (nonempty : inside ≠ [])
    (notPart : ∀ letter ∈ after.head?, isNamePart letter = false) :
    numeralParts (inside ++ after) = (inside, after) ↔
      numeralTail (exponentMarks inside) false (inside.drop (baseSize inside) ++ after) =
        (inside.drop (baseSize inside), after) := by
  have sameStart := isHexadecimalStart_append nonempty notPart
  have sameSize : baseSize (inside ++ after) = baseSize inside := by
    simp only [baseSize, sameStart]
  have sameMarks : exponentMarks (inside ++ after) = exponentMarks inside := by
    simp only [exponentMarks, sameStart]
  have sizeLe := baseSize_le_length inside
  have whole := List.take_append_drop (baseSize inside) inside
  rw [numeralParts_eq, sameSize, sameMarks, List.take_append_of_le_length sizeLe,
    List.drop_append_of_le_length sizeLe]
  constructor
  · intro same
    rcases Prod.mk.inj same with ⟨sameInside, sameAfter⟩
    exact Prod.ext (List.append_cancel_left (sameInside.trans whole.symm)) sameAfter
  · intro same
    rw [same, whole]

theorem numeralAt_eq_ok_iff {line : Nat} {letters after : List Char} {token : Token} :
    numeralAt line letters = .ok (token, after) ↔
      token.kind = .number ∧ numeralParts letters = (token.letters, after) ∧
        (∀ letter ∈ after.head?, isNamePart letter = false) ∧
        isNumeral token.letters = true := by
  rcases token with ⟨kind, inside⟩
  rw [← any_head?_eq_false_iff]
  unfold numeralAt
  cases parts : numeralParts letters with
  | mk taken left =>
    cases part : left.head?.any isNamePart <;> cases numeral : isNumeral taken <;> grind

/-- The digits of a numeral are not empty. -/
private theorem drop_baseSize_ne_nil {letters : List Char} (nonempty : letters ≠ [])
    (numeral : isNumeral letters = true) : letters.drop (baseSize letters) ≠ [] := by
  unfold isNumeral at numeral
  unfold baseSize
  split at numeral
  · rename_i hexadecimal
    rw [if_pos hexadecimal]
    intro empty
    have short := List.drop_eq_nil_iff.mp empty
    simp only [decide_eq_true_eq] at numeral
    omega
  · rename_i decimal
    rw [if_neg decimal]
    exact nonempty

private theorem any_getLast?_eq_endsInMark {letters : List Char} {size : Nat}
    (nonempty : letters.drop size ≠ []) (marks : List Char) :
    letters.getLast?.any marks.contains = endsInMark marks false (letters.drop size) := by
  have isLast := List.getLast?_eq_some_getLast nonempty
  have sameLast : letters.getLast? = (letters.drop size).getLast? := by
    rw [← List.take_append_drop size letters, List.getLast?_append, List.take_append_drop, isLast]
    rfl
  simp only [endsInMark, sameLast, isLast, Option.any_some]

/-- A numeral is taken in front of letters exactly if it is a numeral alone and
the first of them does not go on with it. -/
theorem numeralAt_append_iff {token : Token} {after : List Char} {line : Nat}
    (nonempty : token.letters ≠ []) :
    numeralAt line (token.letters ++ after) = .ok (token, after) ↔
      numeralAt 1 token.letters = .ok (token, []) ∧
        ∀ letter ∈ after.head?, goesOnNumber token.letters letter = false := by
  have noSign := exponentMarks_noSign token.letters
  have aloneIff := @numeralParts_append_iff token.letters [] nonempty (by simp)
  rw [List.append_nil, List.append_nil] at aloneIff
  rw [numeralAt_eq_ok_iff, numeralAt_eq_ok_iff, aloneIff]
  constructor
  · rintro ⟨kind, parts, notPart, numeral⟩
    have digits := drop_baseSize_ne_nil nonempty numeral
    rw [numeralParts_append_iff nonempty notPart, numeralTail_append_iff noSign,
      ← any_getLast?_eq_endsInMark digits] at parts
    refine ⟨⟨kind, parts.1, by simp, numeral⟩, fun letter member => ?_⟩
    exact goesOnNumber_eq_false_iff.mpr ⟨notPart letter member, parts.2 letter member⟩
  · rintro ⟨⟨kind, parts, -, numeral⟩, stops⟩
    have digits := drop_baseSize_ne_nil nonempty numeral
    have notPart : ∀ letter ∈ after.head?, isNamePart letter = false :=
      fun letter member => (goesOnNumber_eq_false_iff.mp (stops letter member)).1
    rw [numeralParts_append_iff nonempty notPart, numeralTail_append_iff noSign,
      ← any_getLast?_eq_endsInMark digits]
    exact ⟨kind, ⟨parts, fun letter member =>
      (goesOnNumber_eq_false_iff.mp (stops letter member)).2⟩, notPart, numeral⟩

/-! ## Words -/

/-- A word is taken in front of letters exactly if it is a word alone and the
first of them does not go on with it. -/
theorem wordAt_append_iff {token : Token} {after : List Char} :
    wordAt (token.letters ++ after) = (token, after) ↔
      wordAt token.letters = (token, []) ∧ ∀ letter ∈ after.head?, isNamePart letter = false := by
  rcases token with ⟨kind, word⟩
  have sameIff : ∀ left, (word ++ left).takeWhile isNamePart = word →
      (word ++ left).dropWhile isNamePart = left := by
    intro left same
    have whole := List.takeWhile_append_dropWhile (p := isNamePart) (l := word ++ left)
    rw [same] at whole
    exact List.append_cancel_left whole
  have wordIff : ∀ left, wordAt (word ++ left) = ({ kind := kind, letters := word }, left) ↔
      (if isKeyword word then TokenKind.keyword else TokenKind.name) = kind ∧
        (word ++ left).takeWhile isNamePart = word := by
    intro left
    unfold wordAt
    constructor
    · intro same
      rcases Prod.mk.inj same with ⟨sameToken, -⟩
      rcases Token.mk.inj sameToken with ⟨sameKind, sameWord⟩
      rw [sameWord] at sameKind
      exact ⟨sameKind, sameWord⟩
    · rintro ⟨sameKind, sameWord⟩
      simp only [sameWord, sameKind, sameIff left sameWord]
  have aloneIff := wordIff []
  rw [List.append_nil] at aloneIff
  have fitsIff := takeWhile_append_iff isNamePart word []
  rw [List.append_nil] at fitsIff
  rw [wordIff, aloneIff, takeWhile_append_iff, fitsIff]
  simp [and_assoc]

/-! ## Long brackets -/

theorem length_closingTail (level : Nat) : (closingTail level).length = level + 1 := by
  simp [closingTail]

/-- What is taken up to the closing of a long bracket ends in that closing. -/
theorem closing_of_untilClosing? {level : Nat} {letters inside after : List Char}
    (found : untilClosing? level letters = some (inside, after)) :
    ∃ body, inside = body ++ ']' :: closingTail level := by
  induction letters generalizing inside with
  | nil => simp [untilClosing?] at found
  | cons letter rest inductionHypothesis =>
    rw [untilClosing?] at found
    split at found
    · rename_i closes
      simp only [Bool.and_eq_true, decide_eq_true_eq] at closes
      rcases Prod.mk.inj (Option.some.inj found) with ⟨rfl, -⟩
      exact ⟨[], by rw [closes.1, closes.2, List.nil_append]⟩
    · rcases Option.map_eq_some_iff.mp found with ⟨⟨inner, tail⟩, foundInner, same⟩
      rcases Prod.mk.inj same with ⟨rfl, rfl⟩
      rcases inductionHypothesis foundInner with ⟨body, rfl⟩
      exact ⟨letter :: body, rfl⟩

theorem length_of_untilClosing? {level : Nat} {letters inside after : List Char}
    (found : untilClosing? level letters = some (inside, after)) :
    level + 2 ≤ inside.length := by
  rcases closing_of_untilClosing? found with ⟨body, rfl⟩
  simp only [List.length_append, List.length_cons, length_closingTail]
  omega

private theorem untilClosing?_cons_iff {level : Nat} {letter : Char}
    {rest inside after : List Char}
    (goesOn : ¬ (letter = ']' ∧ rest.take (level + 1) = closingTail level)) :
    untilClosing? level (letter :: rest) = some (letter :: inside, after) ↔
      untilClosing? level rest = some (inside, after) := by
  rw [untilClosing?, if_neg (by simpa using goesOn), Option.map_eq_some_iff]
  constructor
  · rintro ⟨⟨inner, tail⟩, found, same⟩
    rcases Prod.mk.inj same with ⟨sameInside, rfl⟩
    rw [found, (List.cons.inj sameInside).2]
  · intro found
    exact ⟨_, found, rfl⟩

/-- A long bracket is taken up to its closing in front of letters exactly if
it is taken alone. -/
theorem untilClosing?_append_iff {level : Nat} {inside after : List Char} :
    untilClosing? level (inside ++ after) = some (inside, after) ↔
      untilClosing? level inside = some (inside, []) := by
  induction inside with
  | nil =>
    constructor
    · intro found
      simpa using length_of_untilClosing? found
    · intro found
      simpa using length_of_untilClosing? found
  | cons letter rest inductionHypothesis =>
    rw [List.cons_append]
    by_cases closes : letter = ']' ∧ rest.take (level + 1) = closingTail level
    · -- The bracket closes within these letters, so the two results can only differ in the rest.
      have enough : level + 1 ≤ rest.length := by
        have sameLength := congrArg List.length closes.2
        rw [List.length_take, length_closingTail] at sameLength
        omega
      have sameTake : (rest ++ after).take (level + 1) = rest.take (level + 1) :=
        List.take_append_of_le_length enough
      have sameDrop : (rest ++ after).drop (level + 1) = rest.drop (level + 1) ++ after :=
        List.drop_append_of_le_length enough
      rw [untilClosing?, untilClosing?, sameTake, sameDrop, if_pos (by simpa using closes),
        if_pos (by simpa using closes)]
      simp
    · by_cases later : letter = ']' ∧ (rest ++ after).take (level + 1) = closingTail level
      · -- It would close with the help of what follows, which neither side allows.
        have short : rest.length ≤ level := by
          rcases Nat.lt_or_ge level rest.length with long | short
          · rw [List.take_append_of_le_length long] at later
            exact absurd later closes
          · exact short
        constructor
        · intro found
          have enough := length_of_untilClosing? found
          simp only [List.length_cons] at enough
          omega
        · intro found
          have enough := length_of_untilClosing? found
          simp only [List.length_cons] at enough
          omega
      · rw [untilClosing?_cons_iff closes, untilClosing?_cons_iff later]
        exact inductionHypothesis

theorem longOpening?_longLetters (level : Nat) (inside : List Char) :
    longOpening? (longLetters level inside) = some (level, inside) := by
  have equals : ∀ letter ∈ List.replicate level '=', decide (letter = '=') = true := by
    simp
  simp only [longLetters, longOpening?]
  rw [List.dropWhile_append_of_pos equals, List.takeWhile_append_of_pos equals]
  simp

/-- What is taken at a bracket is a whole long string, or the bracket alone
where neither a second one nor an equals sign follows. -/
theorem bracketAt_eq_ok_iff {token : Token} {rest after : List Char} {line : Nat} :
    (∃ reached, bracketAt line rest = .ok (token, after, reached)) ↔
      (∃ level inside, token = { kind := .string, letters := longLetters level inside } ∧
        '[' :: rest = longLetters level (inside ++ after) ∧
        untilClosing? level inside = some (inside, [])) ∨
      (token = { kind := .symbol, letters := ['['] } ∧ rest = after ∧
        ∀ letter ∈ after.head?, letter ≠ '[' ∧ letter ≠ '=') := by
  constructor
  · rintro ⟨reached, taken⟩
    unfold bracketAt at taken
    split at taken
    · rename_i level body opened
      split at taken
      · simp at taken
      · rename_i inside left found
        cases taken
        have joined := append_of_untilClosing? found
        refine Or.inl ⟨level, inside, rfl, ?_, ?_⟩
        · rw [joined, longLetters_of_longOpening? opened]
        · rw [← joined] at found
          exact untilClosing?_append_iff.mp found
    · rename_i notOpened
      split at taken
      · simp at taken
      · rename_i notEquals
        cases taken
        refine Or.inr ⟨rfl, rfl, fun letter member => ⟨?_, ?_⟩⟩
        · rintro rfl
          cases rest with
          | nil => cases member
          | cons head tail =>
            cases member
            rw [show '[' :: '[' :: tail = longLetters 0 tail from rfl,
              longOpening?_longLetters] at notOpened
            cases notOpened
        · rintro rfl
          cases rest with
          | nil => cases member
          | cons head tail =>
            cases member
            exact notEquals tail rfl
  · rintro (⟨level, inside, rfl, spelled, alone⟩ | ⟨rfl, rfl, stops⟩)
    · have found : untilClosing? level (inside ++ after) = some (inside, after) :=
        untilClosing?_append_iff.mpr alone
      refine ⟨line + inside.count '\n', ?_⟩
      unfold bracketAt
      rw [spelled, longOpening?_longLetters]
      simp only [found]
      rfl
    · refine ⟨line, ?_⟩
      cases rest with
      | nil => rfl
      | cons head tail =>
        rcases stops head (by simp) with ⟨notBracket, notEquals⟩
        have notOpened : longOpening? ('[' :: head :: tail) = none := by
          simp only [longOpening?]
          split
          · rename_i body stripped
            simp [notEquals] at stripped
            exact absurd stripped.1 notBracket
          · rfl
        unfold bracketAt
        simp only [notOpened]
        split
        · rename_i same
          cases same
          exact absurd rfl notEquals
        · rfl

private theorem goesOnSymbol_bracket (letter : Char) :
    goesOnSymbol ['['] letter = false ↔ letter ≠ '[' ∧ letter ≠ '=' := by
  have noSymbol : symbols.any (fun symbol => symbol.toList = ['['] ++ [letter]) = false := by
    simp [symbols]
  unfold goesOnSymbol
  rw [noSymbol]
  simp

/-- A long string or a bracket is taken in front of letters exactly if it is
taken alone and the first of them does not go on with it. -/
theorem bracketAt_append_iff {token : Token} {tail after : List Char} {line : Nat}
    (spelled : token.letters = '[' :: tail) :
    (∃ reached, bracketAt line (tail ++ after) = .ok (token, after, reached)) ↔
      (∃ reached, bracketAt 1 tail = .ok (token, [], reached)) ∧ token.EndsBefore after := by
  rw [bracketAt_eq_ok_iff, bracketAt_eq_ok_iff]
  constructor
  · rintro (⟨level, inside, rfl, -, alone⟩ | ⟨rfl, -, stops⟩)
    · refine ⟨Or.inl ⟨level, inside, rfl, ?_, alone⟩, fun letter _ => rfl⟩
      rw [List.append_nil, ← spelled]
    · cases spelled
      exact ⟨Or.inr ⟨rfl, rfl, by simp⟩,
        fun letter member => (goesOnSymbol_bracket letter).mpr (stops letter member)⟩
  · rintro ⟨⟨level, inside, rfl, -, alone⟩ | ⟨rfl, -, -⟩, ends⟩
    · refine Or.inl ⟨level, inside, rfl, ?_, alone⟩
      rw [← List.cons_append, ← spelled, longLetters_append]
    · cases spelled
      exact Or.inr ⟨rfl, rfl,
        fun letter member => (goesOnSymbol_bracket letter).mp (ends letter member)⟩

/-! ## Symbols -/

private theorem symbols_longestFirst :
    symbols.Pairwise fun first second => second.toList.length ≤ first.toList.length := by
  decide +kernel

/-- Where two symbols begin alike, every length between theirs has a symbol. -/
private theorem symbols_dense : ∀ short ∈ symbols, ∀ long ∈ symbols,
    short.toList <+: long.toList → short.toList.length < long.toList.length →
      ∃ next ∈ symbols, next.toList = long.toList.take (short.toList.length + 1) := by
  decide +kernel

private theorem longest_of_find? {letters : List Char} {symbol : String}
    (found : (symbols.find? fun symbol => symbol.toList.isPrefixOf letters) = some symbol)
    (other : String) (listed : other ∈ symbols) (fits : other.toList <+: letters) :
    other.toList.length ≤ symbol.toList.length := by
  rcases List.find?_eq_some_iff_append.mp found with ⟨-, before, behind, whole, skipped⟩
  have order := symbols_longestFirst
  rw [whole] at listed order
  rcases List.mem_append.mp listed with earlier | later
  · have notPrefix := skipped other earlier
    simp only [Bool.not_eq_true', ← Bool.not_eq_true, List.isPrefixOf_iff_prefix] at notPrefix
    exact absurd fits notPrefix
  · rcases List.mem_cons.mp later with rfl | behindIt
    · exact Nat.le_refl _
    · exact List.rel_of_pairwise_cons (List.pairwise_append.mp order).2.1 behindIt

/-- The symbol that is found at the start of letters is the longest there. -/
theorem find?_symbols_iff {letters : List Char} {symbol : String} :
    (symbols.find? fun symbol => symbol.toList.isPrefixOf letters) = some symbol ↔
      symbol ∈ symbols ∧ symbol.toList <+: letters ∧
        ∀ other ∈ symbols, other.toList <+: letters →
          other.toList.length ≤ symbol.toList.length := by
  constructor
  · intro found
    exact ⟨List.mem_of_find?_eq_some found, by simpa using List.find?_some found,
      longest_of_find? found⟩
  · rintro ⟨listed, fits, longest⟩
    have some : (symbols.find? fun symbol => symbol.toList.isPrefixOf letters).isSome := by
      rw [List.find?_isSome]
      exact ⟨symbol, listed, by simpa using fits⟩
    rcases Option.isSome_iff_exists.mp some with ⟨other, found⟩
    have otherFits : other.toList <+: letters := by simpa using List.find?_some found
    have lower := longest other (List.mem_of_find?_eq_some found) otherFits
    have upper := longest_of_find? found symbol listed fits
    have nested := List.prefix_of_prefix_length_le otherFits fits lower
    have same := nested.eq_of_length (Nat.le_antisymm lower upper)
    rw [found, String.toList_inj.mp same]

theorem symbolAt_eq_ok_iff {line : Nat} {first : Char} {rest after : List Char} {token : Token} :
    symbolAt line first rest = .ok (token, after) ↔
      token.kind = .symbol ∧ token.letters ++ after = first :: rest ∧
        (∃ symbol ∈ symbols, symbol.toList = token.letters) ∧
        ∀ other ∈ symbols, other.toList <+: first :: rest →
          other.toList.length ≤ token.letters.length := by
  constructor
  · intro taken
    have whole := (append_of_symbolAt taken).1
    unfold symbolAt at taken
    split at taken
    · rename_i symbol found
      cases taken
      rcases find?_symbols_iff.mp found with ⟨listed, -, longest⟩
      exact ⟨rfl, whole, ⟨symbol, listed, rfl⟩, longest⟩
    · simp at taken
  · rintro ⟨kind, whole, ⟨symbol, listed, spelled⟩, longest⟩
    have fits : symbol.toList <+: first :: rest := ⟨after, by rw [spelled, whole]⟩
    have found := find?_symbols_iff.mpr ⟨listed, fits, by rwa [spelled]⟩
    rcases token with ⟨_, letters⟩
    cases kind
    change symbol.toList = letters at spelled
    subst spelled
    unfold symbolAt
    rw [found]
    simp only [← whole, List.drop_left]

/-- A symbol is the longest at the start of letters exactly if it is a symbol
and no symbol is one letter longer there. -/
private theorem longest_iff {letters after : List Char}
    (isSymbol : ∃ symbol ∈ symbols, symbol.toList = letters) :
    (∀ other ∈ symbols, other.toList <+: letters ++ after →
        other.toList.length ≤ letters.length) ↔
      ∀ letter ∈ after.head?, ∀ other ∈ symbols, other.toList ≠ letters ++ [letter] := by
  rcases isSymbol with ⟨symbol, listed, rfl⟩
  constructor
  · intro longest letter member other otherListed same
    cases after with
    | nil => cases member
    | cons head tail =>
      cases member
      have fits : other.toList <+: symbol.toList ++ letter :: tail :=
        ⟨tail, by rw [same, List.append_assoc, List.singleton_append]⟩
      have notLonger := longest other otherListed fits
      rw [same, List.length_append, List.length_singleton] at notLonger
      omega
  · intro noNext other otherListed fits
    rcases Nat.lt_or_ge symbol.toList.length other.toList.length with longer | notLonger
    · have nested := List.prefix_of_prefix_length_le (List.prefix_append symbol.toList after) fits
        (Nat.le_of_lt longer)
      rcases symbols_dense symbol listed other otherListed nested longer with ⟨next, nextListed, same⟩
      rcases fits with ⟨behind, whole⟩
      cases after with
      | nil =>
        have sameLength := congrArg List.length whole
        simp only [List.length_append, List.length_nil] at sameLength
        omega
      | cons head tail =>
        refine absurd ?_ (noNext head (by simp) next nextListed)
        have sameTake := congrArg (List.take (symbol.toList.length + 1)) whole
        rw [List.take_append_of_le_length longer] at sameTake
        rw [same, sameTake, List.take_length_add_append]
        rfl
    · exact notLonger

/-- A symbol is taken in front of letters exactly if it is taken alone and the
first of them makes no other symbol with it. -/
theorem symbolAt_append_iff {token : Token} {first : Char} {tail after : List Char} {line : Nat}
    (spelled : token.letters = first :: tail) :
    symbolAt line first (tail ++ after) = .ok (token, after) ↔
      symbolAt 1 first tail = .ok (token, []) ∧
        ∀ letter ∈ after.head?, ∀ other ∈ symbols, other.toList ≠ token.letters ++ [letter] := by
  rw [symbolAt_eq_ok_iff, symbolAt_eq_ok_iff, ← List.cons_append, ← spelled]
  constructor
  · rintro ⟨kind, -, isSymbol, longest⟩
    refine ⟨⟨kind, List.append_nil _, isSymbol, ?_⟩, (longest_iff isSymbol).mp longest⟩
    intro other listed fits
    exact longest other listed (fits.trans (List.prefix_append _ _))
  · rintro ⟨⟨kind, -, isSymbol, -⟩, noNext⟩
    exact ⟨kind, rfl, isSymbol, (longest_iff isSymbol).mpr noNext⟩

/-! ## Any token -/

def startsComment : List Char → Bool
  | '-' :: '-' :: _ => true
  | _ => false

theorem startsComment_cons (first : Char) (rest : List Char) :
    startsComment (first :: rest) = (first = '-' && rest.head? = some '-') := by
  cases rest with
  | nil => simp [startsComment]
  | cons second tail =>
    unfold startsComment
    split <;> simp_all

theorem startsComment_iff {letters : List Char} :
    startsComment letters = true ↔ ∃ tail, letters = '-' :: '-' :: tail := by
  unfold startsComment
  split
  · simp
  · rename_i noDashes
    simp only [Bool.false_eq_true, false_iff, not_exists]
    exact fun tail same => noDashes tail same

/-- Whether a numeral begins with a letter, given what follows it. -/
def startsNumber (first : Char) (rest : List Char) : Bool :=
  Digits.isDecimal first || (first = '.' && rest.head?.any Digits.isDecimal)

/-- What a token that begins with a letter is, given what follows that letter:
the kinds are told apart by the letter, and for a point by the one after it. -/
def TakenAt (first : Char) (rest : List Char) (token : Token) (after : List Char) : Prop :=
  if isNameStart first then wordAt (first :: rest) = (token, after)
  else if startsNumber first rest then numeralAt 1 (first :: rest) = .ok (token, after)
  else if first = '"' ∨ first = '\'' then
    ∃ inside, token = { kind := .string, letters := first :: inside } ∧
      inside ++ after = rest ∧ isStringRest first .plain inside = true
  else if first = '[' then ∃ reached, bracketAt 1 rest = .ok (token, after, reached)
  else symbolAt 1 first rest = .ok (token, after)

/-- The line on which a token is read does not matter for the token. -/
theorem tokenAt_eq_ok_iff {line : Nat} {first : Char} {rest after : List Char} {token : Token} :
    (∃ reached, tokenAt line first rest = .ok (token, after, reached)) ↔
      TakenAt first rest token after := by
  unfold tokenAt TakenAt startsNumber
  by_cases isName : isNameStart first = true
  · simp [isName, Prod.ext_iff]
  rw [if_neg isName, if_neg isName]
  by_cases isNumber :
      (Digits.isDecimal first || (first = '.' && rest.head?.any Digits.isDecimal)) = true
  · rw [if_pos isNumber, if_pos isNumber, numeralAt_eq_ok_iff, ← @numeralAt_eq_ok_iff line]
    cases numeralAt line (first :: rest) with
    | error fault => simp [Except.map]
    | ok pair => simp [Except.map, Prod.ext_iff]
  rw [if_neg isNumber, if_neg isNumber]
  by_cases isQuote : first = '"' ∨ first = '\''
  · rw [if_pos (by simpa using isQuote), if_pos isQuote]
    constructor
    · rintro ⟨reached, taken⟩
      cases short : stringTail first .plain line rest with
      | error fault => simp [short, Except.map] at taken
      | ok triple =>
        rw [short] at taken
        cases taken
        exact ⟨triple.1, rfl, append_of_stringTail short, isStringRest_of_stringTail short⟩
    · rintro ⟨inside, rfl, rfl, isRest⟩
      rcases stringTail_of_isStringRest isRest line after with ⟨last, taken⟩
      exact ⟨last, by rw [taken]; rfl⟩
  rw [if_neg (by simpa using isQuote), if_neg isQuote]
  by_cases isBracket : first = '['
  · rw [if_pos isBracket, if_pos isBracket, bracketAt_eq_ok_iff, bracketAt_eq_ok_iff]
  rw [if_neg isBracket, if_neg isBracket, symbolAt_eq_ok_iff, ← @symbolAt_eq_ok_iff line]
  cases symbolAt line first rest with
  | error fault => simp [Except.map]
  | ok pair => simp [Except.map, Prod.ext_iff]

theorem readToken?_eq_some_iff {first : Char} {rest after : List Char} {token : Token} :
    readToken? first rest = some (token, after) ↔ TakenAt first rest token after := by
  rw [← @tokenAt_eq_ok_iff 1]
  unfold readToken?
  cases tokenAt 1 first rest with
  | error fault => simp
  | ok triple => simp [Prod.ext_iff]

private theorem endsBefore_of_wordAt {token : Token} {letters after left : List Char}
    (taken : wordAt letters = (token, left)) :
    token.EndsBefore after ↔ ∀ letter ∈ after.head?, isNamePart letter = false := by
  unfold wordAt at taken
  rcases Prod.mk.inj taken with ⟨rfl, -⟩
  unfold Token.EndsBefore Token.goesOn
  cases isKeyword (letters.takeWhile isNamePart) <;> simp

private theorem endsBefore_of_numeralAt {token : Token} {letters after left : List Char}
    (taken : numeralAt 1 letters = .ok (token, left)) :
    token.EndsBefore after ↔ ∀ letter ∈ after.head?, goesOnNumber token.letters letter = false := by
  have kind := (numeralAt_eq_ok_iff.mp taken).1
  unfold Token.EndsBefore Token.goesOn
  simp only [kind]

private theorem startsComment_of_ne {first : Char} (noDash : first ≠ '-') (rest : List Char) :
    startsComment (first :: rest) = false := by
  rw [startsComment_cons]
  simp [noDash]

private theorem startsNumber_append {first : Char} {tail : List Char}
    (isNumber : startsNumber first tail = true) (after : List Char) :
    startsNumber first (tail ++ after) = true := by
  cases tail with
  | nil =>
    have isDigit : Digits.isDecimal first = true := by simpa [startsNumber] using isNumber
    simp [startsNumber, isDigit]
  | cons second rest => exact isNumber

private theorem point_of_startsNumber {first : Char} {tail after : List Char}
    (notNumber : ¬ startsNumber first tail = true)
    (isNumber : startsNumber first (tail ++ after) = true) :
    first = '.' ∧ tail = [] ∧
      ∃ digit rest, after = digit :: rest ∧ Digits.isDecimal digit = true := by
  cases tail with
  | nil =>
    cases after with
    | nil => exact absurd isNumber notNumber
    | cons digit rest =>
      simp only [startsNumber, List.head?_nil, Option.any_none, Bool.and_false, Bool.or_false,
        Bool.not_eq_true] at notNumber
      simp only [startsNumber, notNumber, List.nil_append, List.head?_cons, Option.any_some,
        Bool.false_or, Bool.and_eq_true, decide_eq_true_eq] at isNumber
      exact ⟨isNumber.1, rfl, digit, rest, rfl, isNumber.2⟩
  | cons second rest => exact absurd isNumber notNumber

private theorem symbols_dash : ∀ symbol ∈ symbols, symbol.toList.head? = some '-' →
    symbol.toList = ['-'] := by
  decide +kernel

/-- A symbol that is no bracket and begins no numeral ends before letters
exactly if they make no other symbol and no comment with it. -/
private theorem endsBefore_of_symbolAt {token : Token} {first : Char} {tail after : List Char}
    (spelled : token.letters = first :: tail) (noBracket : first ≠ '[')
    (noNumber : startsNumber first (tail ++ after) = false)
    (taken : symbolAt 1 first tail = .ok (token, [])) :
    token.EndsBefore after ↔
      (∀ letter ∈ after.head?, ∀ other ∈ symbols, other.toList ≠ token.letters ++ [letter]) ∧
        startsComment (token.letters ++ after) = false := by
  rcases symbolAt_eq_ok_iff.mp taken with ⟨kind, -, ⟨symbol, listed, isSymbol⟩, -⟩
  have onlyDash : first = '-' → tail = [] := by
    rintro rfl
    have same := symbols_dash symbol listed (by rw [isSymbol, spelled]; rfl)
    rw [isSymbol, spelled] at same
    exact (List.cons.inj same).2
  cases after with
  | nil =>
    simp only [Token.endsBefore_nil, List.append_nil, true_iff]
    refine ⟨by simp, ?_⟩
    rw [spelled, startsComment_cons]
    by_cases dash : first = '-'
    · simp [onlyDash dash]
    · simp [dash]
  | cons letter rest =>
    have noDigit : ¬ (token.letters = ['.'] ∧ Digits.isDecimal letter = true) := by
      rintro ⟨isPoint, isDigit⟩
      rw [spelled] at isPoint
      cases isPoint
      simp [startsNumber, isDigit] at noNumber
    have notBracket : token.letters ≠ ['['] := by
      intro isBracket
      rw [spelled] at isBracket
      exact noBracket (List.cons.inj isBracket).1
    have dashIff : startsComment (token.letters ++ letter :: rest) = false ↔
        ¬ (token.letters = ['-'] ∧ letter = '-') := by
      rw [spelled, List.cons_append, startsComment_cons]
      by_cases dash : first = '-'
      · simp [dash, onlyDash dash]
      · simp [dash]
    have nextIff : symbols.any (fun symbol => symbol.toList = token.letters ++ [letter]) = false ↔
        ∀ other ∈ symbols, other.toList ≠ token.letters ++ [letter] := by
      simp [List.any_eq_false]
    rw [Token.endsBefore_cons, dashIff]
    simp only [Token.goesOn, kind, goesOnSymbol, Bool.or_eq_false_iff, nextIff]
    simp only [List.head?_cons, Option.mem_some_iff, forall_eq', notBracket, decide_false,
      Bool.false_and, and_true]
    have dotIff : (decide (token.letters = ['.']) && Digits.isDecimal letter) = false := by
      simpa using noDigit
    simp [dotIff]

/-- A token that is read in front of letters stands alone and ends there, and
a token that stands alone is read in front of any letters before which it
ends. -/
theorem readToken?_append_iff {token : Token} {first : Char} {tail after : List Char}
    (spelled : token.letters = first :: tail) :
    (readToken? first (tail ++ after) = some (token, after) ∧
        startsComment (token.letters ++ after) = false) ↔
      readToken? first tail = some (token, []) ∧ token.EndsBefore after := by
  rw [readToken?_eq_some_iff, readToken?_eq_some_iff]
  unfold TakenAt
  by_cases isName : isNameStart first = true
  · have noComment : startsComment (token.letters ++ after) = false := by
      rw [spelled]
      exact startsComment_of_ne (by rintro rfl; revert isName; decide) _
    rw [if_pos isName, if_pos isName, ← List.cons_append, ← spelled, wordAt_append_iff]
    simp only [noComment, and_true]
    exact and_congr_right fun taken => (endsBefore_of_wordAt taken).symm
  rw [if_neg isName, if_neg isName]
  have nonempty : token.letters ≠ [] := by simp [spelled]
  by_cases isNumber : startsNumber first tail = true
  · have numberLater := startsNumber_append isNumber after
    have noComment : startsComment (token.letters ++ after) = false := by
      rw [spelled]
      exact startsComment_of_ne (by rintro rfl; simp [startsNumber, Digits.isDecimal] at isNumber) _
    rw [if_pos isNumber, if_pos numberLater, ← List.cons_append, ← spelled,
      numeralAt_append_iff nonempty]
    simp only [noComment, and_true]
    exact and_congr_right fun taken => (endsBefore_of_numeralAt taken).symm
  rw [if_neg isNumber]
  by_cases numberLater : startsNumber first (tail ++ after) = true
  · -- A point alone is no numeral, though the digit after it would make it one.
    rcases point_of_startsNumber isNumber numberLater with ⟨rfl, rfl, digit, rest, rfl, isDigit⟩
    rw [if_pos numberLater]
    constructor
    · rintro ⟨taken, -⟩
      rw [← List.cons_append, ← spelled, numeralAt_append_iff nonempty] at taken
      have notPart := (goesOnNumber_eq_false_iff.mp (taken.2 digit (by simp))).1
      simp [isNamePart, isDigit] at notPart
    · rintro ⟨taken, ends⟩
      have kind : token.kind = .symbol := (symbolAt_eq_ok_iff.mp taken).1
      rw [Token.endsBefore_cons] at ends
      simp [Token.goesOn, kind, goesOnSymbol, spelled, isDigit] at ends
  rw [if_neg numberLater]
  by_cases isQuote : first = '"' ∨ first = '\''
  · have noComment : startsComment (token.letters ++ after) = false := by
      rw [spelled]
      exact startsComment_of_ne (by rintro rfl; revert isQuote; decide) _
    rw [if_pos isQuote, if_pos isQuote]
    constructor
    · rintro ⟨⟨inside, rfl, -, isRest⟩, -⟩
      cases spelled
      exact ⟨⟨tail, rfl, List.append_nil _, isRest⟩, fun letter _ => rfl⟩
    · rintro ⟨⟨inside, rfl, -, isRest⟩, -⟩
      cases spelled
      exact ⟨⟨tail, rfl, rfl, isRest⟩, noComment⟩
  rw [if_neg isQuote, if_neg isQuote]
  by_cases isBracket : first = '['
  · have noComment : startsComment (token.letters ++ after) = false := by
      rw [spelled]
      exact startsComment_of_ne (by rintro rfl; revert isBracket; decide) _
    rw [if_pos isBracket, if_pos isBracket]
    subst isBracket
    simp only [noComment, and_true]
    exact bracketAt_append_iff spelled
  rw [if_neg isBracket, if_neg isBracket, symbolAt_append_iff spelled, and_assoc]
  exact and_congr_right fun taken =>
    (endsBefore_of_symbolAt spelled isBracket (by simpa using numberLater) taken).symm

end Lua

end LogPipeline
