import LogPipeline.Lua.Lexicon
import LogPipeline.Proofs.Lua.Pieces

namespace LogPipeline

namespace Lua

namespace Lexicon

/-!
# The numerals of the interpreter

A numeral has digits with a point at will between them, and at will an
exponent; the interpreter takes it where nothing goes on with it.  Every such
numeral is one for the splitting of scripts as well, which reads digits, points
and exponent marks in any order.
-/

/-- What the digits and exponent marks of a base have to be. -/
structure IsBase (isDigit isMark : Char → Bool) : Prop where
  digitPart : ∀ {letter : Char}, isDigit letter = true → isNamePart letter = true
  markPart : ∀ {letter : Char}, isMark letter = true → isNamePart letter = true
  markNoDigit : ∀ {letter : Char}, isMark letter = true → isDigit letter = false

def isDecimalMark (letter : Char) : Bool :=
  letter = 'e' || letter = 'E'

def isHexadecimalMark (letter : Char) : Bool :=
  letter = 'p' || letter = 'P'

theorem decimal_isBase : IsBase Digits.isDecimal isDecimalMark where
  digitPart := Literal.isNamePart_of_isDecimal
  markPart := by
    intro letter isMark
    simp only [isDecimalMark, Bool.or_eq_true, decide_eq_true_eq] at isMark
    rcases isMark with rfl | rfl <;> decide
  markNoDigit := by
    intro letter isMark
    simp only [isDecimalMark, Bool.or_eq_true, decide_eq_true_eq] at isMark
    rcases isMark with rfl | rfl <;> decide

theorem hexadecimal_isBase : IsBase Digits.isHexadecimal isHexadecimalMark where
  digitPart := isNamePart_of_isHexadecimal
  markPart := by
    intro letter isMark
    simp only [isHexadecimalMark, Bool.or_eq_true, decide_eq_true_eq] at isMark
    rcases isMark with rfl | rfl <;> decide
  markNoDigit := by
    intro letter isMark
    simp only [isHexadecimalMark, Bool.or_eq_true, decide_eq_true_eq] at isMark
    rcases isMark with rfl | rfl <;> decide

/-- Digits with a point at will between them. -/
inductive Significand (isDigit : Char → Bool) : List Char → Prop
  | whole {digits : List Char} :
      (∀ digit ∈ digits, isDigit digit = true) → digits ≠ [] → Significand isDigit digits
  | pointed {digits fraction : List Char} :
      (∀ digit ∈ digits, isDigit digit = true) → (∀ digit ∈ fraction, isDigit digit = true) →
        ¬ (digits = [] ∧ fraction = []) → Significand isDigit (digits ++ '.' :: fraction)

/-- An exponent, or nothing. -/
inductive Exponent (isMark : Char → Bool) : List Char → Prop
  | absent : Exponent isMark []
  | present {mark : Char} {sign digits : List Char} :
      isMark mark = true → sign = [] ∨ sign = ['+'] ∨ sign = ['-'] →
        (∀ digit ∈ digits, Digits.isDecimal digit = true) → digits ≠ [] →
          Exponent isMark (mark :: (sign ++ digits))

/-- The letters of a numeral. -/
inductive Numeral : List Char → Prop
  | decimal {significand exponent : List Char} :
      Significand Digits.isDecimal significand → Exponent isDecimalMark exponent →
        Numeral (significand ++ exponent)
  | hexadecimal {mark : Char} {significand exponent : List Char} :
      mark = 'x' ∨ mark = 'X' → Significand Digits.isHexadecimal significand →
        Exponent isHexadecimalMark exponent → Numeral ('0' :: mark :: (significand ++ exponent))

/-! ## What the interpreter takes -/

theorem significand_of_taken {isDigit : Char → Bool} {letters taken after : List Char}
    (read : significand? isDigit letters = some (taken, after)) :
    taken ++ after = letters ∧ Significand isDigit taken := by
  have whole := List.takeWhile_append_dropWhile (p := isDigit) (l := letters)
  unfold significand? at read
  dsimp only at read
  split at read
  · rename_i rest pointed
    split at read
    · cases read
    · rename_i someDigit
      cases read
      refine ⟨?_, .pointed passes_of_mem_takeWhile passes_of_mem_takeWhile (by simpa using someDigit)⟩
      rw [List.append_assoc, List.cons_append, List.takeWhile_append_dropWhile, ← pointed, whole]
  · split at read
    · cases read
    · rename_i someDigit
      cases read
      exact ⟨whole, .whole passes_of_mem_takeWhile (by simpa using someDigit)⟩

theorem signParts_whole (letters : List Char) :
    (signParts letters).1 ++ (signParts letters).2 = letters ∧
      ((signParts letters).1 = [] ∨ (signParts letters).1 = ['+'] ∨
        (signParts letters).1 = ['-']) := by
  cases letters with
  | nil => exact ⟨rfl, Or.inl rfl⟩
  | cons letter rest =>
    rw [signParts]
    split
    · rename_i isSign
      simp only [Bool.or_eq_true, decide_eq_true_eq] at isSign
      rcases isSign with rfl | rfl <;> simp
    · exact ⟨rfl, Or.inl rfl⟩

theorem exponentParts_cons (isMark : Char → Bool) (mark : Char) (rest : List Char) :
    exponentParts isMark (mark :: rest) =
      if isMark mark && (signParts rest).2.head?.any Digits.isDecimal then
        (mark :: ((signParts rest).1 ++ (signParts rest).2.takeWhile Digits.isDecimal),
          (signParts rest).2.dropWhile Digits.isDecimal)
      else ([], mark :: rest) := rfl

theorem exponent_of_taken {isMark : Char → Bool} {letters taken after : List Char}
    (read : exponentParts isMark letters = (taken, after)) :
    taken ++ after = letters ∧ Exponent isMark taken := by
  cases letters with
  | nil =>
    cases read
    exact ⟨rfl, .absent⟩
  | cons mark rest =>
    rw [exponentParts_cons] at read
    split at read
    · rename_i present
      rcases Bool.and_eq_true_iff.mp present with ⟨marks, someDigit⟩
      rcases signParts_whole rest with ⟨whole, sign⟩
      cases read
      refine ⟨?_, .present marks sign passes_of_mem_takeWhile ?_⟩
      · rw [List.cons_append, List.append_assoc, List.takeWhile_append_dropWhile, whole]
      · intro noDigit
        cases digits : (signParts rest).2 with
        | nil => simp [digits] at someDigit
        | cons digit more =>
          have isDigit : Digits.isDecimal digit = true := by simpa [digits] using someDigit
          simp [digits, isDigit] at noDigit
    · cases read
      exact ⟨rfl, .absent⟩

section Base

variable {isDigit isMark : Char → Bool} (base : IsBase isDigit isMark)
include base

theorem significand?_append {taken after : List Char} (isTaken : Significand isDigit taken)
    (stops : ∀ next ∈ after.head?, isDigit next = false ∧ next ≠ '.') :
    significand? isDigit (taken ++ after) = some (taken, after) := by
  have stopsDigits : ∀ next ∈ after.head?, isDigit next = false :=
    fun next member => (stops next member).1
  cases isTaken with
  | whole digits someDigit =>
    have same := (takeWhile_append_iff isDigit taken after).mpr ⟨digits, stopsDigits⟩
    unfold significand?
    rw [same, dropWhile_of_takeWhile same]
    split
    · exact absurd rfl (stops '.' rfl).2
    · rw [if_neg (by simpa using someDigit)]
  | @pointed digits fraction areDigits fractionDigits someDigit =>
    have noDigit : isDigit '.' = false := by
      cases isPoint : isDigit '.' with
      | false => rfl
      | true => cases base.digitPart isPoint
    have same : (digits ++ '.' :: (fraction ++ after)).takeWhile isDigit = digits :=
      (takeWhile_append_iff isDigit _ _).mpr ⟨areDigits, by simpa using noDigit⟩
    have sameFraction := (takeWhile_append_iff isDigit fraction after).mpr
      ⟨fractionDigits, stopsDigits⟩
    unfold significand?
    rw [List.append_assoc, List.cons_append, same, dropWhile_of_takeWhile same]
    split
    · rename_i rest same
      cases same
      dsimp only
      rw [sameFraction, dropWhile_of_takeWhile sameFraction,
        if_neg (by simpa using someDigit)]
    · rename_i noPoint
      exact absurd rfl (noPoint _)

theorem exponentParts_append {taken after : List Char} (isTaken : Exponent isMark taken)
    (stops : ∀ next ∈ after.head?, isNamePart next = false) :
    exponentParts isMark (taken ++ after) = (taken, after) := by
  cases isTaken with
  | absent =>
    cases after with
    | nil => rfl
    | cons next rest =>
      have noMark : ¬ isMark next = true := by
        intro marks
        have isPart := base.markPart marks
        rw [stops next rfl] at isPart
        cases isPart
      rw [List.nil_append, exponentParts_cons, if_neg (by simp [noMark])]
  | @present mark sign digits marks isSign areDigits someDigit =>
    have same := (takeWhile_append_iff Digits.isDecimal digits after).mpr ⟨areDigits, ?_⟩
    have sameSign : signParts (sign ++ (digits ++ after)) = (sign, digits ++ after) := by
      rcases List.exists_cons_of_ne_nil someDigit with ⟨digit, more, rfl⟩
      have isDigit := areDigits digit List.mem_cons_self
      have noPlus := Literal.ne_of_isDecimal isDigit (show Digits.isDecimal '+' = false by decide)
      have noDash := Literal.ne_of_isDecimal isDigit (show Digits.isDecimal '-' = false by decide)
      rcases isSign with rfl | rfl | rfl
      · simp [signParts, noPlus, noDash]
      · rfl
      · rfl
    have someDigit' : (digits ++ after).head?.any Digits.isDecimal = true := by
      rcases List.exists_cons_of_ne_nil someDigit with ⟨digit, more, rfl⟩
      exact areDigits digit List.mem_cons_self
    · rw [List.cons_append, List.append_assoc, exponentParts_cons, sameSign, marks, someDigit',
        same, dropWhile_of_takeWhile same]
      rfl
    · intro next member
      have noPart := stops next member
      rw [isNamePart, Bool.or_eq_false_iff] at noPart
      exact noPart.2

/-- The digits and the exponent of a numeral are taken in front of letters
that do not go on with them. -/
theorem numeralBody?_append {significand exponent after : List Char}
    (isSignificand : Significand isDigit significand) (isExponent : Exponent isMark exponent)
    (stops : ∀ next ∈ after.head?, goesOn next = false) :
    numeralBody? isDigit isMark (significand ++ exponent ++ after) =
      some (significand ++ exponent, after) := by
  have stopsPart : ∀ next ∈ after.head?, isNamePart next = false := fun next member =>
    (Bool.or_eq_false_iff.mp (stops next member)).1
  have noDigit {letter : Char} (noPart : isNamePart letter = false) : isDigit letter = false := by
    cases digit : isDigit letter with
    | false => rfl
    | true =>
      rw [base.digitPart digit] at noPart
      cases noPart
  have stopsDigits : ∀ next ∈ (exponent ++ after).head?, isDigit next = false ∧ next ≠ '.' := by
    intro next member
    cases isExponent with
    | absent =>
      refine ⟨noDigit (stopsPart next member), ?_⟩
      rintro rfl
      cases stops '.' member
    | @present mark sign digits marks isSign areDigits someDigit =>
      cases member
      refine ⟨base.markNoDigit marks, ?_⟩
      rintro rfl
      cases base.markPart marks
  rw [numeralBody?, List.append_assoc, significand?_append base isSignificand stopsDigits]
  dsimp only
  rw [exponentParts_append base isExponent stopsPart]

end Base

theorem numeralBody_of_taken {isDigit isMark : Char → Bool} {letters taken after : List Char}
    (read : numeralBody? isDigit isMark letters = some (taken, after)) :
    taken ++ after = letters ∧ ∃ significand exponent, taken = significand ++ exponent ∧
      Significand isDigit significand ∧ Exponent isMark exponent := by
  unfold numeralBody? at read
  split at read
  · rename_i digits rest isSignificand
    cases read
    rcases significand_of_taken isSignificand with ⟨rfl, isDigits⟩
    rcases @exponent_of_taken isMark _ _ _ rfl with ⟨whole, isExponent⟩
    exact ⟨by rw [List.append_assoc, whole], _, _, rfl, isDigits, isExponent⟩
  · cases read

theorem longestNumeral?_eq (letters : List Char) :
    longestNumeral? letters =
      if isHexadecimalStart letters then
        (numeralBody? Digits.isHexadecimal isHexadecimalMark (letters.drop 2)).map
          fun (body, after) => (letters.take 2 ++ body, after)
      else numeralBody? Digits.isDecimal isDecimalMark letters := by
  match letters with
  | [] => rfl
  | [letter] =>
    rw [isHexadecimalStart_singleton]
    rfl
  | zero :: mark :: rest =>
    rw [isHexadecimalStart_cons_cons]
    rfl

theorem Significand.ne_nil {isDigit : Char → Bool} {letters : List Char}
    (significand : Significand isDigit letters) : letters ≠ [] := by
  cases significand with
  | whole digits someDigit => exact someDigit
  | pointed => exact List.append_ne_nil_of_right_ne_nil _ (List.cons_ne_nil _ _)

/-- The letters of a decimal numeral are digits, points, marks and signs. -/
theorem letters_of_decimal {significand exponent : List Char}
    (isSignificand : Significand Digits.isDecimal significand)
    (isExponent : Exponent isDecimalMark exponent) :
    ∀ letter ∈ significand ++ exponent,
      (Digits.isDecimal letter || ['.', 'e', 'E', '+', '-'].contains letter) = true := by
  have digit {digits : List Char} (areDigits : ∀ digit ∈ digits, Digits.isDecimal digit = true)
      {letter : Char} (member : letter ∈ digits) :
      (Digits.isDecimal letter || ['.', 'e', 'E', '+', '-'].contains letter) = true := by
    rw [areDigits letter member, Bool.true_or]
  intro letter member
  rcases List.mem_append.mp member with inSignificand | inExponent
  · cases isSignificand with
    | whole digits someDigit => exact digit digits inSignificand
    | pointed digits fraction someDigit =>
      rcases List.mem_append.mp inSignificand with inWhole | inRest
      · exact digit digits inWhole
      · rcases List.mem_cons.mp inRest with rfl | inFraction
        · rfl
        · exact digit fraction inFraction
  · cases isExponent with
    | absent => cases inExponent
    | @present mark sign digits marks isSign areDigits someDigit =>
      rcases List.mem_cons.mp inExponent with rfl | inRest
      · simp only [isDecimalMark, Bool.or_eq_true, decide_eq_true_eq] at marks
        rcases marks with rfl | rfl <;> rfl
      · rcases List.mem_append.mp inRest with inSign | inDigits
        · rcases isSign with rfl | rfl | rfl
          · cases inSign
          · rw [List.mem_singleton.mp inSign]
            rfl
          · rw [List.mem_singleton.mp inSign]
            rfl
        · exact digit areDigits inDigits

theorem noHexadecimalStart_of_decimal {significand exponent : List Char}
    (isSignificand : Significand Digits.isDecimal significand)
    (isExponent : Exponent isDecimalMark exponent) :
    isHexadecimalStart (significand ++ exponent) = false := by
  have letters := letters_of_decimal isSignificand isExponent
  match whole : significand ++ exponent with
  | [] => rfl
  | [letter] => exact isHexadecimalStart_singleton letter
  | zero :: mark :: rest =>
    rw [whole] at letters
    have fits := letters mark (by simp)
    rw [isHexadecimalStart_cons_cons]
    have noMark : mark ≠ 'x' ∧ mark ≠ 'X' := by
      constructor <;> rintro rfl <;> cases fits
    simp [noMark]

/-- What the interpreter takes as a numeral is one, and it takes every numeral
in front of letters that do not go on with it. -/
theorem numeral?_eq_some_iff {letters after : List Char} {token : Token} :
    numeral? letters = some (token, after) ↔
      ∃ inside, token = { kind := .number, letters := inside } ∧ inside ++ after = letters ∧
        Numeral inside ∧ ∀ next ∈ after.head?, goesOn next = false := by
  constructor
  · intro read
    unfold numeral? at read
    split at read
    · rename_i inside left taken
      split at read
      · cases read
      · rename_i stops
        cases read
        refine ⟨inside, rfl, ?_⟩
        rw [longestNumeral?_eq] at taken
        split at taken
        · rename_i isHexadecimal
          rcases isHexadecimalStart_iff.mp isHexadecimal with ⟨mark, rest, rfl, isMark⟩
          rcases Option.map_eq_some_iff.mp taken with ⟨⟨body, left⟩, takenBody, same⟩
          rcases Prod.mk.inj same with ⟨rfl, rfl⟩
          rcases numeralBody_of_taken takenBody with ⟨whole, significand, exponent, rfl,
            isSignificand, isExponent⟩
          refine ⟨congrArg ('0' :: mark :: ·) whole, ?_, any_head?_eq_false_iff.mp (by simpa using stops)⟩
          change Numeral ('0' :: mark :: (significand ++ exponent))
          exact .hexadecimal isMark isSignificand isExponent
        · rcases numeralBody_of_taken taken with ⟨whole, significand, exponent, rfl, isSignificand,
            isExponent⟩
          exact ⟨whole, .decimal isSignificand isExponent, any_head?_eq_false_iff.mp (by simpa using stops)⟩
    · cases read
  · rintro ⟨inside, rfl, rfl, isNumeral, stops⟩
    have stopsPart : ∀ next ∈ after.head?, isNamePart next = false := fun next member =>
      (Bool.or_eq_false_iff.mp (stops next member)).1
    have taken : longestNumeral? (inside ++ after) = some (inside, after) := by
      rw [longestNumeral?_eq]
      cases isNumeral with
      | decimal isSignificand isExponent =>
        rw [isHexadecimalStart_append _ stopsPart,
          noHexadecimalStart_of_decimal isSignificand isExponent]
        · exact numeralBody?_append decimal_isBase isSignificand isExponent stops
        · exact List.append_ne_nil_of_left_ne_nil isSignificand.ne_nil _
      | @hexadecimal mark significand exponent isMark isSignificand isExponent =>
        have hexadecimal : isHexadecimalStart ('0' :: mark :: (significand ++ exponent) ++ after) =
            true := by
          rw [List.cons_append, List.cons_append, isHexadecimalStart_cons_cons]
          simpa using isMark
        rw [if_pos hexadecimal, List.cons_append, List.cons_append, List.drop_succ_cons,
          List.drop_succ_cons, List.drop_zero,
          numeralBody?_append hexadecimal_isBase isSignificand isExponent stops]
        rfl
    rw [numeral?, taken]
    dsimp only
    rw [any_head?_eq_false_iff.mpr stops]
    rfl

/-! ## What the splitting of scripts takes -/

theorem isHexadecimal_of_isDecimal {letter : Char} (isDigit : Digits.isDecimal letter = true) :
    Digits.isHexadecimal letter = true := by
  simp only [Digits.isDecimal, Bool.and_eq_true, decide_eq_true_eq] at isDigit
  simp [Digits.isHexadecimal, Digits.value?, isDigit]

theorem numeralTail_plain {marks : List Char} (noSign : MarkNoSign marks) {letters : List Char}
    (plain : ∀ letter ∈ letters, (Digits.isHexadecimal letter || letter = '.') = true)
    (afterMark : Bool) : numeralTail marks afterMark letters = (letters, []) := by
  induction letters generalizing afterMark with
  | nil => rfl
  | cons letter rest inductionHypothesis =>
    have restPlain := inductionHypothesis fun other member =>
      plain other (List.mem_cons_of_mem letter member)
    have continues : continuesNumeral marks afterMark letter = true := by
      rw [continuesNumeral, Bool.or_assoc, plain letter List.mem_cons_self, Bool.or_true]
    rw [numeralTail_cons noSign, if_pos continues, restPlain]

theorem numeralTail_of_numeral {isDigit isMark : Char → Bool} {marks : List Char}
    (noSign : MarkNoSign marks)
    (sameMarks : ∀ letter, marks.contains letter = isMark letter)
    (hexadecimal : ∀ letter, isDigit letter = true → Digits.isHexadecimal letter = true)
    {significand exponent : List Char}
    (isSignificand : Significand isDigit significand) (isExponent : Exponent isMark exponent) :
    numeralTail marks false (significand ++ exponent) = (significand ++ exponent, []) := by
  have plainDigit {digits : List Char} {letter : Char}
      (areDigits : ∀ digit ∈ digits, isDigit digit = true) (member : letter ∈ digits) :
      (Digits.isHexadecimal letter || letter = '.') = true := by
    rw [hexadecimal letter (areDigits letter member), Bool.true_or]
  have plain : ∀ letter ∈ significand, (Digits.isHexadecimal letter || letter = '.') = true := by
    intro letter member
    cases isSignificand with
    | whole digits someDigit => exact plainDigit digits member
    | pointed digits fraction someDigit =>
      rcases List.mem_append.mp member with inWhole | inRest
      · exact plainDigit digits inWhole
      · rcases List.mem_cons.mp inRest with rfl | inFraction
        · rfl
        · exact plainDigit fraction inFraction
  rw [numeralTail_append noSign (numeralTail_plain noSign plain false)]
  cases isExponent with
  | absent => rfl
  | @present mark sign digits isMark isSign areDigits someDigit =>
    have plainDigits : ∀ letter ∈ digits, (Digits.isHexadecimal letter || letter = '.') = true :=
      fun letter member => by rw [isHexadecimal_of_isDecimal (areDigits letter member), Bool.true_or]
    have tail : numeralTail marks true (sign ++ digits) = (sign ++ digits, []) := by
      rcases isSign with rfl | isSign
      · exact numeralTail_plain noSign plainDigits true
      · have oneLetter : ∃ letter, sign = [letter] ∧ (letter = '+' ∨ letter = '-') := by
          rcases isSign with rfl | rfl <;> simp
        rcases oneLetter with ⟨letter, rfl, plusOrDash⟩
        have continues : continuesNumeral marks true letter = true := by
          rcases plusOrDash with rfl | rfl <;> simp [continuesNumeral]
        rw [List.singleton_append, numeralTail_cons noSign, if_pos continues,
          noSign letter plusOrDash,
          numeralTail_plain noSign plainDigits false]
    have marksIt := (sameMarks mark).trans isMark
    have continues (afterMark : Bool) : continuesNumeral marks afterMark mark = true := by
      rw [continuesNumeral, marksIt, Bool.or_true, Bool.true_or, Bool.true_or]
    rw [numeralTail_cons noSign, if_pos (continues _), marksIt, tail]

/-- A numeral ends in a digit or a point, and so in no exponent mark. -/
theorem last_of_numeral {isDigit isMark : Char → Bool} (base : IsBase isDigit isMark)
    (decimal : ∀ letter, Digits.isDecimal letter = true → isDigit letter = true)
    {significand exponent : List Char} (isSignificand : Significand isDigit significand)
    (isExponent : Exponent isMark exponent) :
    ∃ letter, (significand ++ exponent).getLast? = some letter ∧ isMark letter = false := by
  have noMark {letter : Char} (digit : isDigit letter = true) : isMark letter = false := by
    cases marks : isMark letter with
    | false => rfl
    | true =>
      rw [base.markNoDigit marks] at digit
      cases digit
  have noMarkPoint : isMark '.' = false := by
    cases marks : isMark '.' with
    | false => rfl
    | true => cases base.markPart marks
  cases isExponent with
  | absent =>
    rw [List.append_nil]
    cases isSignificand with
    | whole digits someDigit =>
      have isLast := List.getLast?_eq_some_getLast someDigit
      exact ⟨_, isLast, noMark (digits _ (List.getLast_mem someDigit))⟩
    | @pointed digits fraction areDigits fractionDigits someDigit =>
      rcases List.eq_nil_or_concat fraction with rfl | ⟨more, digit, rfl⟩
      · exact ⟨'.', by simp, noMarkPoint⟩
      · refine ⟨digit, ?_, noMark (fractionDigits digit (by simp))⟩
        rw [List.concat_eq_append, ← List.cons_append, ← List.append_assoc, List.getLast?_concat]
  | @present mark sign digits isMark isSign areDigits someDigit =>
    rcases List.eq_nil_or_concat digits with rfl | ⟨more, digit, rfl⟩
    · exact absurd rfl someDigit
    · refine ⟨digit, ?_, noMark (decimal digit (areDigits digit (by simp)))⟩
      rw [List.concat_eq_append, ← List.append_assoc sign, ← List.cons_append,
        ← List.append_assoc, List.getLast?_concat]

theorem count_point_of_decimal {significand exponent : List Char}
    (isSignificand : Significand Digits.isDecimal significand)
    (isExponent : Exponent isDecimalMark exponent) :
    (significand ++ exponent).count '.' ≤ 1 := by
  have noPoint {digits : List Char} (areDigits : ∀ digit ∈ digits, Digits.isDecimal digit = true) :
      digits.count '.' = 0 := by
    rw [List.count_eq_zero]
    intro member
    cases areDigits '.' member
  have inSignificand : significand.count '.' ≤ 1 := by
    cases isSignificand with
    | whole digits someDigit => rw [noPoint digits]; omega
    | pointed digits fraction someDigit =>
      apply Nat.le_of_eq
      rw [List.count_append, List.count_cons_self, noPoint digits, noPoint fraction]
  have inExponent : exponent.count '.' = 0 := by
    cases isExponent with
    | absent => rfl
    | @present mark sign digits isMark isSign areDigits someDigit =>
      have notMark : mark ≠ '.' := by rintro rfl; cases isMark
      rw [List.count_cons_of_ne notMark, List.count_append, noPoint areDigits]
      rcases isSign with rfl | rfl | rfl <;> rfl
  rw [List.count_append, inExponent]
  omega

private theorem decimalMarks (letter : Char) :
    ['E', 'e'].contains letter = isDecimalMark letter := by
  simp [isDecimalMark, Bool.or_comm]

private theorem hexadecimalMarks (letter : Char) :
    ['P', 'p'].contains letter = isHexadecimalMark letter := by
  simp [isHexadecimalMark, Bool.or_comm]

/-- The letters of a numeral are one for the splitting of scripts, and no sign
goes on with them. -/
theorem numeralParts_of_numeral {inside : List Char} (numeral : Numeral inside) :
    numeralParts inside = (inside, []) ∧ isNumeral inside = true ∧ inside ≠ [] ∧
      ∀ letter, goesOn letter = false → goesOnNumber inside letter = false := by
  have noSign {letter : Char} (isLast : inside.getLast? = some letter)
      (noMark : (exponentMarks inside).contains letter = false) :
      ∀ next, goesOn next = false → goesOnNumber inside next = false := by
    intro next stops
    rw [goesOnNumber, ← goesOn, stops, isLast, Option.any_some, noMark, Bool.and_false]
    rfl
  cases numeral with
  | @decimal significand exponent isSignificand isExponent =>
    have noStart := noHexadecimalStart_of_decimal isSignificand isExponent
    have size : baseSize (significand ++ exponent) = 0 := by simp [baseSize, noStart]
    have marks : exponentMarks (significand ++ exponent) = ['E', 'e'] := by
      simp [exponentMarks, noStart]
    have taken := numeralTail_of_numeral (marks ▸ exponentMarks_noSign _) decimalMarks
      (fun letter => isHexadecimal_of_isDecimal) isSignificand isExponent
    refine ⟨?_, ?_, List.append_ne_nil_of_left_ne_nil isSignificand.ne_nil _, ?_⟩
    · rw [numeralParts_eq, size, marks, List.drop_zero, taken]
      rfl
    · rw [isNumeral, noStart]
      simp only [Bool.false_eq_true, if_false, Bool.and_eq_true, decide_eq_true_eq,
        List.all_eq_true]
      exact ⟨letters_of_decimal isSignificand isExponent,
        count_point_of_decimal isSignificand isExponent⟩
    · rcases last_of_numeral decimal_isBase (fun _ isDigit => isDigit) isSignificand isExponent with
        ⟨letter, isLast, noMark⟩
      exact noSign isLast (by rw [marks, decimalMarks, noMark])
  | @hexadecimal mark significand exponent isMark isSignificand isExponent =>
    have start : isHexadecimalStart ('0' :: mark :: (significand ++ exponent)) = true :=
      isHexadecimalStart_iff.mpr ⟨mark, _, rfl, isMark⟩
    have size : baseSize ('0' :: mark :: (significand ++ exponent)) = 2 := by
      simp [baseSize, start]
    have marks : exponentMarks ('0' :: mark :: (significand ++ exponent)) = ['P', 'p'] := by
      simp [exponentMarks, start]
    have taken := numeralTail_of_numeral (marks ▸ exponentMarks_noSign _) hexadecimalMarks
      (fun _ isDigit => isDigit) isSignificand isExponent
    refine ⟨?_, ?_, List.cons_ne_nil _ _, ?_⟩
    · rw [numeralParts_eq, size, marks, List.drop_succ_cons, List.drop_succ_cons, List.drop_zero,
        taken]
      rfl
    · have positive := List.length_pos_iff.mpr isSignificand.ne_nil
      rw [isNumeral, start]
      simp only [if_true, decide_eq_true_eq, List.length_cons, List.length_append]
      omega
    · rcases last_of_numeral hexadecimal_isBase (fun _ => isHexadecimal_of_isDecimal)
        isSignificand isExponent with ⟨letter, isLast, noMark⟩
      refine noSign ?_ (by rw [marks, hexadecimalMarks, noMark])
      have nonempty := List.append_ne_nil_of_left_ne_nil isSignificand.ne_nil exponent
      rcases List.exists_cons_of_ne_nil nonempty with ⟨first, rest, same⟩
      rw [same] at isLast ⊢
      rw [List.getLast?_cons_cons, List.getLast?_cons_cons, isLast]

/-- The interpreter takes the numerals that the splitting of scripts takes, as
far as their letters are those of a numeral. -/
theorem numeral?_iff_numeralAt {letters after : List Char} {token : Token} :
    numeral? letters = some (token, after) ↔
      numeralAt 1 letters = .ok (token, after) ∧ Numeral token.letters := by
  rw [numeral?_eq_some_iff]
  constructor
  · rintro ⟨inside, rfl, rfl, numeral, stops⟩
    rcases numeralParts_of_numeral numeral with ⟨parts, isNumeral, nonempty, goesOnToo⟩
    refine ⟨?_, numeral⟩
    have taken := @numeralAt_append_iff { kind := .number, letters := inside } after 1 nonempty
    refine taken.mpr ⟨?_, fun next member => goesOnToo next (stops next member)⟩
    exact numeralAt_eq_ok_iff.mpr ⟨rfl, parts, by simp, isNumeral⟩
  · rintro ⟨taken, numeral⟩
    rcases numeralParts_of_numeral numeral with ⟨-, -, nonempty, -⟩
    rcases numeralAt_eq_ok_iff.mp taken with ⟨kind, parts, noPart, -⟩
    have whole := append_numeralParts letters
    rw [parts] at whole
    refine ⟨token.letters, by rw [← kind], whole, numeral, fun next member => ?_⟩
    rw [← whole, numeralAt_append_iff nonempty] at taken
    have stops := taken.2 next member
    rw [goesOnNumber, Bool.or_eq_false_iff] at stops
    exact stops.1

end Lexicon

end Lua

end LogPipeline
