import LogPipeline.Proofs.Classic.Rendering
import LogPipeline.Proofs.Number.Shortest
import LogPipeline.Proofs.Number.Whole
import LogPipeline.Proofs.Text.Spans

namespace LogPipeline

/-!
# Doubles inside lists and maps

A double of its own is written as the multiple of a millionth nearest to it.
Inside a list or a map it is written as a whole number where it is one of
moderate size, and as the shortest decimal that reads back otherwise.  The two
texts are compared here: they are the same exactly if the double is such a whole
number, or if its shortest decimal is written without an exponent and is, with
one to six places, the nearest multiple of a millionth.

What is written of one double does not depend on where it stands, and a comma
or a bracket ends it.  So the text of a list or a map shows the doubles as they
are written of their own exactly if that holds of each double inside.
-/

namespace Value

mutual

/-- The doubles inside a value, at any depth, in the order in which they are
written. -/
def reals : Value → List Binary64
  | .real number => [number]
  | .list items => itemReals items
  | .map entries => entryReals entries
  | _ => []

def itemReals : List Value → List Binary64
  | [] => []
  | item :: items => reals item ++ itemReals items

def entryReals : List (String × Value) → List Binary64
  | [] => []
  | (_, value) :: entries => reals value ++ entryReals entries

end

end Value

namespace Json

/-! ## The two texts of a double -/

/-- The shortest decimal is written without an exponent: its point falls among
the first sixteen digits, or at most five zeros follow it. -/
def IsPositional (shortest : Decimal) : Prop :=
  -5 < ((Digits.decimal shortest.digits).length : Int) + shortest.exponent ∧
    ((Digits.decimal shortest.digits).length : Int) + shortest.exponent ≤ 16

/-- A decimal with one to six places is the multiple of a millionth nearest to
a number. -/
def IsNearestMillionth (number : Binary64) (shortest : Decimal) : Prop :=
  -(FixedPoint.places : Int) ≤ shortest.exponent ∧ shortest.exponent < 0 ∧
    FixedPoint.millionths number =
      shortest.digits * 10 ^ ((FixedPoint.places : Int) + shortest.exponent).toNat

/-- A double is written inside lists and maps as it is written of its own: it
is a whole number between `-2^63` and `2^63`, or its shortest decimal is both
written without an exponent and the nearest multiple of a millionth. -/
def WrittenAlike (number : Binary64) : Prop :=
  number.isIntegral = true ∨
    (IsPositional (Shortest.decimal .even number) ∧
      IsNearestMillionth number (Shortest.decimal .even number))

instance (shortest : Decimal) : Decidable (IsPositional shortest) :=
  inferInstanceAs (Decidable (_ ∧ _))

instance (number : Binary64) (shortest : Decimal) :
    Decidable (IsNearestMillionth number shortest) :=
  inferInstanceAs (Decidable (_ ∧ _ ∧ _))

instance (number : Binary64) : Decidable (WrittenAlike number) :=
  inferInstanceAs (Decidable (_ ∨ _ ∧ _))

/-- The text that a double has of its own, between quotes where it is no
finite number. -/
def ownReal (number : Binary64) : List Char :=
  if number.isFinite then (FixedPoint.text number).toList
  else string (FixedPoint.text number)

theorem isIntegral_iff {number : Binary64} :
    number.isIntegral = true ↔ number.isFinite = true ∧
      number.numerator % number.denominator = 0 ∧
      number.numerator / number.denominator < 0x8000000000000000 := by
  rw [Binary64.isIntegral, Bool.and_eq_true, Bool.and_eq_true, decide_eq_true_eq,
    decide_eq_true_eq, and_assoc]

theorem isIntegral_of_not_isFinite {number : Binary64} (infinite : number.isFinite = false) :
    number.isIntegral = false := by
  rw [Binary64.isIntegral, infinite, Bool.false_and, Bool.false_and]

theorem real_of_not_isFinite {number : Binary64} (infinite : number.isFinite = false) :
    real number = string (FixedPoint.text number) := by
  rw [real, isIntegral_of_not_isFinite infinite, infinite, if_neg Bool.false_ne_true,
    if_neg Bool.false_ne_true]

theorem isZero_of_not_isIntegral {number : Binary64} (noInteger : number.isIntegral = false) :
    number.isZero = false := by
  rw [← Bool.not_eq_true] at noInteger ⊢
  intro zero
  apply noInteger
  rw [Binary64.isZero, Bool.and_eq_true, decide_eq_true_eq, decide_eq_true_eq] at zero
  have nothing : number.numerator = 0 := by
    rw [Binary64.numerator, Binary64.significand, if_pos zero.1, zero.2, Nat.zero_mul]
  rw [isIntegral_iff, nothing, Nat.zero_mod, Nat.zero_div, Binary64.isFinite, zero.1]
  exact ⟨by decide, rfl, by decide⟩

theorem ownReal_of_isFinite {number : Binary64} (finite : number.isFinite = true) :
    ownReal number = FixedPoint.finite number := by
  rw [ownReal, if_pos finite, FixedPoint.text_of_isFinite finite, String.toList_ofList]

theorem compact_of_not_isZero {number : Binary64} (notZero : number.isZero = false) :
    (IsPositional (Shortest.decimal .even number) ∧
      Shortest.compact number =
        Shortest.withSign number (Shortest.withPoint (Shortest.decimal .even number))) ∨
    (¬ IsPositional (Shortest.decimal .even number) ∧
      Shortest.compact number =
        Shortest.withSign number (Shortest.scientific (Shortest.decimal .even number))) := by
  rw [Shortest.compact, notZero, if_neg Bool.false_ne_true]
  by_cases isPositional : IsPositional (Shortest.decimal .even number)
  · exact .inl ⟨isPositional, congrArg (Shortest.withSign number) (if_pos isPositional)⟩
  · exact .inr ⟨isPositional, congrArg (Shortest.withSign number) (if_neg isPositional)⟩

def isPlainLetter (letter : Char) : Bool :=
  Digits.isDecimal letter || letter = '.' || letter = '-'

theorem isPlainLetter_of_allDecimal {letters : List Char} (digits : Digits.AllDecimal letters) :
    ∀ letter ∈ letters, isPlainLetter letter = true := by
  intro letter member
  rw [isPlainLetter, digits letter member, Bool.true_or, Bool.true_or]

theorem isPlainLetter_pointed (places number : Nat) :
    ∀ letter ∈ Digits.pointed places number, isPlainLetter letter = true := by
  intro letter member
  rw [Digits.pointed, List.mem_append, List.mem_cons] at member
  rcases member with whole | rfl | rest
  · exact isPlainLetter_of_allDecimal (Digits.allDecimal_decimal _) letter whole
  · rfl
  · exact isPlainLetter_of_allDecimal (Digits.allDecimal_paddedDecimal _ _) letter rest

theorem isPlainLetter_unsigned (count : Nat) :
    ∀ letter ∈ FixedPoint.unsigned count, isPlainLetter letter = true := by
  rcases FixedPoint.unsigned_cases count with ⟨-, written⟩ | ⟨kept, number, -, -, -, -, written⟩
  · rw [written]
    exact isPlainLetter_of_allDecimal (Digits.allDecimal_decimal _)
  · rw [written]
    exact isPlainLetter_pointed kept number

theorem isPlainLetter_finite (number : Binary64) :
    ∀ letter ∈ FixedPoint.finite number, isPlainLetter letter = true := by
  intro letter member
  rw [FixedPoint.finite] at member
  split at member
  · rcases List.mem_cons.mp member with rfl | later
    · rfl
    · exact isPlainLetter_unsigned _ letter later
  · exact isPlainLetter_unsigned _ letter member

theorem mark_mem_scientific (number : Binary64) (decimal : Decimal) :
    'e' ∈ Shortest.withSign number (Shortest.scientific decimal) := by
  have member : 'e' ∈ Shortest.scientific decimal :=
    List.mem_append_right _ List.mem_cons_self
  rw [Shortest.withSign]
  split
  · exact List.mem_cons_of_mem _ member
  · exact member

/-- With a point in them, signed texts are the same if the unsigned ones are. -/
theorem withSign_pointed_eq_iff {number : Binary64} {places digits : Nat}
    (somePlace : 0 < places) :
    Shortest.withSign number (Digits.pointed places digits) = FixedPoint.finite number ↔
      FixedPoint.unsigned (FixedPoint.millionths number) = Digits.pointed places digits := by
  rw [Shortest.withSign, FixedPoint.finite]
  cases number.isNegative with
  | false =>
    rw [if_neg Bool.false_ne_true, Bool.false_and, if_neg Bool.false_ne_true]
    exact eq_comm
  | true =>
    rw [if_pos rfl, Bool.true_and]
    by_cases nothing : FixedPoint.millionths number = 0
    · rw [nothing, if_neg (by decide), FixedPoint.unsigned_eq_pointed_iff somePlace]
      constructor
      · intro same
        have minus : '-' ∈ FixedPoint.unsigned 0 := by
          rw [← same]
          exact List.mem_cons_self
        have noUnits := FixedPoint.unsigned_mul_unit 0
        rw [Nat.zero_mul] at noUnits
        rw [noUnits] at minus
        exact absurd minus ((Digits.allDecimal_decimal 0).notMem rfl)
      · rintro ⟨-, lastPlace, same⟩
        rcases Nat.mul_eq_zero.mp same.symm with rfl | power
        · exact absurd rfl lastPlace
        · exact absurd power (Nat.ne_of_gt (Nat.pow_pos (by omega)))
    · rw [if_pos (decide_eq_true nothing), List.cons.injEq]
      constructor
      · rintro ⟨-, same⟩
        exact same.symm
      · intro same
        exact ⟨rfl, same.symm⟩

theorem unsigned_eq_withPoint_iff {number : Binary64} {shortest : Decimal}
    (lastDigit : shortest.digits % 10 ≠ 0) :
    Shortest.withSign number (Shortest.withPoint shortest) = FixedPoint.finite number ↔
      IsNearestMillionth number shortest := by
  rcases shortest with ⟨digits, exponent⟩
  rcases Int.lt_or_le exponent 0 with negative | nonnegative
  · obtain ⟨places, rfl⟩ := Int.exists_eq_neg_ofNat (Int.le_of_lt negative)
    have somePlace : 0 < places := by omega
    rw [Shortest.withPoint_of_neg somePlace, withSign_pointed_eq_iff somePlace,
      FixedPoint.unsigned_eq_pointed_iff somePlace, IsNearestMillionth]
    dsimp only
    rw [show ((FixedPoint.places : Int) + -(places : Int)).toNat = FixedPoint.places - places by
      omega]
    constructor
    · rintro ⟨atMost, -, counted⟩
      exact ⟨by omega, negative, counted⟩
    · rintro ⟨atMost, -, counted⟩
      exact ⟨by omega, lastDigit, counted⟩
  · obtain ⟨zeros, rfl⟩ := Int.eq_ofNat_of_zero_le nonnegative
    rw [Shortest.withPoint_of_nonneg (by dsimp only at lastDigit; omega),
      withSign_pointed_eq_iff (by omega), FixedPoint.unsigned_eq_pointed_iff (by omega)]
    constructor
    · rintro ⟨-, lastPlace, -⟩
      exact absurd (Nat.mul_mod_left _ 10) lastPlace
    · rintro ⟨-, negative, -⟩
      exact absurd negative (Int.not_lt.mpr nonnegative)

/-- The text of a finite double inside a list or a map is the text that it has
of its own exactly if the double is written alike. -/
theorem real_eq_ownReal_iff {number : Binary64} (finite : number.isFinite = true) :
    real number = ownReal number ↔ WrittenAlike number := by
  rw [WrittenAlike, real]
  cases isInteger : number.isIntegral with
  | true =>
    rw [if_pos rfl, ownReal, if_pos finite,
      FixedPoint.text_of_whole finite (isIntegral_iff.mp isInteger).2.1, String.toList_ofList]
    exact iff_of_true rfl (.inl rfl)
  | false =>
    have notZero := isZero_of_not_isIntegral isInteger
    rw [if_neg Bool.false_ne_true, if_pos finite, ownReal_of_isFinite finite]
    simp only [Bool.false_eq_true, false_or]
    rcases compact_of_not_isZero notZero with ⟨isPositional, written⟩ | ⟨noPositional, written⟩
    · rw [written, unsigned_eq_withPoint_iff (Shortest.digits_decimal .even notZero)]
      exact (and_iff_right isPositional).symm
    · rw [written]
      constructor
      · intro same
        have mark := mark_mem_scientific number (Shortest.decimal .even number)
        rw [same] at mark
        exact absurd (isPlainLetter_finite number 'e' mark) (by decide)
      · rintro ⟨isPositional, -⟩
        exact absurd isPositional noPositional

/-- Two and a half. -/
example : WrittenAlike ⟨0x4004000000000000⟩ := by decide +kernel

/-! ## The doubles in the text of a value -/

mutual

/-- The JSON text of a value in which every double has a given text. -/
def lettersWith (write : Binary64 → List Char) : Value → List Char
  | .text content => string content
  | .integer number => Digits.signed number.toInt
  | .real number => write number
  | .truth flag => if flag then ['t', 'r', 'u', 'e'] else ['f', 'a', 'l', 's', 'e']
  | .list items => '[' :: (itemLettersWith write items ++ [']'])
  | .map entries => '\x7b' :: (entryLettersWith write entries ++ ['\x7d'])

def itemLettersWith (write : Binary64 → List Char) : List Value → List Char
  | [] => []
  | [item] => lettersWith write item
  | item :: next :: items => lettersWith write item ++ ',' :: itemLettersWith write (next :: items)

def entryLettersWith (write : Binary64 → List Char) : List (String × Value) → List Char
  | [] => []
  | [(key, value)] => string key ++ ':' :: lettersWith write value
  | (key, value) :: next :: entries =>
    string key ++ ':' :: (lettersWith write value ++ ',' :: entryLettersWith write (next :: entries))

end

mutual

theorem letters_eq_lettersWith (value : Value) : letters value = lettersWith real value := by
  cases value with
  | list items => rw [letters, lettersWith, itemLetters_eq_itemLettersWith items]
  | map entries => rw [letters, lettersWith, entryLetters_eq_entryLettersWith entries]
  | _ => rw [letters, lettersWith]

theorem itemLetters_eq_itemLettersWith (items : List Value) :
    itemLetters items = itemLettersWith real items := by
  match items with
  | [] => rw [itemLetters, itemLettersWith]
  | [item] => rw [itemLetters, itemLettersWith, letters_eq_lettersWith item]
  | item :: next :: items =>
    rw [itemLetters, itemLettersWith, letters_eq_lettersWith item,
      itemLetters_eq_itemLettersWith (next :: items)]

theorem entryLetters_eq_entryLettersWith (entries : List (String × Value)) :
    entryLetters entries = entryLettersWith real entries := by
  match entries with
  | [] => rw [entryLetters, entryLettersWith]
  | [(key, value)] => rw [entryLetters, entryLettersWith, letters_eq_lettersWith value]
  | (key, value) :: next :: entries =>
    rw [entryLetters, entryLettersWith, letters_eq_lettersWith value,
      entryLetters_eq_entryLettersWith (next :: entries)]

end

def isDelimiter (letter : Char) : Bool :=
  letter = ',' || letter = ']' || letter = '\x7d'

/-- What follows a value inside a list or a map. -/
def Closes (rest : List Char) : Prop :=
  ∀ letter ∈ rest.head?, isDelimiter letter = true

theorem closes_cons {closing : Char} (closes : isDelimiter closing = true) {rest : List Char} :
    Closes (closing :: rest) := by
  intro letter member
  rw [List.head?_cons, Option.mem_some_iff] at member
  rw [← member]
  exact closes

def Undivided (letters : List Char) : Prop :=
  ∀ letter ∈ letters, isDelimiter letter = false

theorem undivided_iff {letters : List Char} :
    Undivided letters ↔ letters.all (fun letter => !isDelimiter letter) = true := by
  rw [List.all_eq_true]
  simp only [Undivided, Bool.not_eq_true']

/-- Undivided texts in front of delimiters are the same if the wholes are. -/
theorem append_inj_of_undivided {left right leftRest rightRest : List Char}
    (leftUndivided : Undivided left) (rightUndivided : Undivided right)
    (leftCloses : Closes leftRest) (rightCloses : Closes rightRest)
    (same : left ++ leftRest = right ++ rightRest) : left = right ∧ leftRest = rightRest := by
  have taken : ∀ {letters rest : List Char}, Undivided letters → Closes rest →
      (letters ++ rest).takeWhile (fun letter => !isDelimiter letter) = letters := by
    intro letters rest undivided closes
    rw [takeWhile_append_iff]
    constructor
    · intro letter member
      rw [undivided letter member]
      rfl
    · intro letter member
      rw [closes letter member]
      rfl
  have sameFront : left = right := by
    rw [← taken leftUndivided leftCloses, same, taken rightUndivided rightCloses]
  rw [sameFront] at same
  exact ⟨sameFront, List.append_cancel_left same⟩

section Delimited

variable {first second : Binary64 → List Char}

mutual

/-- The text of a value in front of a delimiter shows how each double inside is
written. -/
theorem lettersWith_append_inj {value : Value}
    (undivided : ∀ number ∈ value.reals, Undivided (first number) ∧ Undivided (second number))
    {firstRest secondRest : List Char} (firstCloses : Closes firstRest)
    (secondCloses : Closes secondRest)
    (same : lettersWith first value ++ firstRest = lettersWith second value ++ secondRest) :
    (∀ number ∈ value.reals, first number = second number) ∧ firstRest = secondRest := by
  cases value with
  | real number =>
    have own : number ∈ (Value.real number).reals := List.mem_cons_self
    rw [lettersWith, lettersWith] at same
    rcases append_inj_of_undivided (undivided number own).1 (undivided number own).2 firstCloses
      secondCloses same with ⟨sameText, sameRest⟩
    refine ⟨?_, sameRest⟩
    intro other member
    rw [Value.reals, List.mem_singleton] at member
    rw [member]
    exact sameText
  | list items =>
    rw [lettersWith, lettersWith, List.cons_append, List.cons_append, List.append_assoc,
      List.append_assoc] at same
    rw [Value.reals] at undivided ⊢
    rcases itemLettersWith_append_inj undivided (by decide) (List.cons.inj same).2 with
      ⟨sameTexts, sameRest⟩
    exact ⟨sameTexts, (List.cons.inj sameRest).2⟩
  | map entries =>
    rw [lettersWith, lettersWith, List.cons_append, List.cons_append, List.append_assoc,
      List.append_assoc] at same
    rw [Value.reals] at undivided ⊢
    rcases entryLettersWith_append_inj undivided (by decide) (List.cons.inj same).2 with
      ⟨sameTexts, sameRest⟩
    exact ⟨sameTexts, (List.cons.inj sameRest).2⟩
  | text content =>
    rw [lettersWith, lettersWith] at same
    exact ⟨List.forall_mem_nil _, List.append_cancel_left same⟩
  | integer number =>
    rw [lettersWith, lettersWith] at same
    exact ⟨List.forall_mem_nil _, List.append_cancel_left same⟩
  | truth flag =>
    rw [lettersWith, lettersWith] at same
    exact ⟨List.forall_mem_nil _, List.append_cancel_left same⟩

theorem itemLettersWith_append_inj {items : List Value}
    (undivided : ∀ number ∈ Value.itemReals items,
      Undivided (first number) ∧ Undivided (second number))
    {closing : Char} (closes : isDelimiter closing = true) {firstRest secondRest : List Char}
    (same : itemLettersWith first items ++ closing :: firstRest =
      itemLettersWith second items ++ closing :: secondRest) :
    (∀ number ∈ Value.itemReals items, first number = second number) ∧
      closing :: firstRest = closing :: secondRest := by
  match items with
  | [] =>
    rw [itemLettersWith, itemLettersWith] at same
    exact ⟨List.forall_mem_nil _, same⟩
  | [item] =>
    rw [itemLettersWith, itemLettersWith] at same
    rw [Value.itemReals, Value.itemReals, List.append_nil] at undivided ⊢
    exact lettersWith_append_inj undivided (closes_cons closes) (closes_cons closes) same
  | item :: next :: items =>
    rw [itemLettersWith, itemLettersWith, List.append_assoc, List.append_assoc, List.cons_append,
      List.cons_append] at same
    rw [Value.itemReals, List.forall_mem_append] at undivided ⊢
    rcases lettersWith_append_inj undivided.1 (closes_cons (by decide)) (closes_cons (by decide))
      same with ⟨sameFirst, sameOthers⟩
    rcases itemLettersWith_append_inj undivided.2 closes (List.cons.inj sameOthers).2 with
      ⟨sameLater, sameRest⟩
    exact ⟨⟨sameFirst, sameLater⟩, sameRest⟩

theorem entryLettersWith_append_inj {entries : List (String × Value)}
    (undivided : ∀ number ∈ Value.entryReals entries,
      Undivided (first number) ∧ Undivided (second number))
    {closing : Char} (closes : isDelimiter closing = true) {firstRest secondRest : List Char}
    (same : entryLettersWith first entries ++ closing :: firstRest =
      entryLettersWith second entries ++ closing :: secondRest) :
    (∀ number ∈ Value.entryReals entries, first number = second number) ∧
      closing :: firstRest = closing :: secondRest := by
  match entries with
  | [] =>
    rw [entryLettersWith, entryLettersWith] at same
    exact ⟨List.forall_mem_nil _, same⟩
  | [(key, value)] =>
    rw [entryLettersWith, entryLettersWith, List.append_assoc, List.append_assoc,
      List.cons_append, List.cons_append] at same
    rw [Value.entryReals, Value.entryReals, List.append_nil] at undivided ⊢
    exact lettersWith_append_inj undivided (closes_cons closes) (closes_cons closes)
      (List.cons.inj (List.append_cancel_left same)).2
  | (key, value) :: next :: entries =>
    rw [entryLettersWith, entryLettersWith, List.append_assoc, List.append_assoc,
      List.cons_append, List.cons_append, List.append_assoc, List.append_assoc, List.cons_append,
      List.cons_append] at same
    rw [Value.entryReals, List.forall_mem_append] at undivided ⊢
    rcases lettersWith_append_inj undivided.1 (closes_cons (by decide)) (closes_cons (by decide))
      (List.cons.inj (List.append_cancel_left same)).2 with ⟨sameFirst, sameOthers⟩
    rcases entryLettersWith_append_inj undivided.2 closes (List.cons.inj sameOthers).2 with
      ⟨sameLater, sameRest⟩
    exact ⟨⟨sameFirst, sameLater⟩, sameRest⟩

end

end Delimited

mutual

/-- Doubles that are written alike make texts that are alike. -/
theorem lettersWith_congr {first second : Binary64 → List Char} {value : Value}
    (alike : ∀ number ∈ value.reals, first number = second number) :
    lettersWith first value = lettersWith second value := by
  cases value with
  | real number =>
    rw [lettersWith, lettersWith]
    exact alike number List.mem_cons_self
  | list items =>
    rw [lettersWith, lettersWith, itemLettersWith_congr alike]
  | map entries =>
    rw [lettersWith, lettersWith, entryLettersWith_congr alike]
  | _ => rw [lettersWith, lettersWith]

theorem itemLettersWith_congr {first second : Binary64 → List Char} {items : List Value}
    (alike : ∀ number ∈ Value.itemReals items, first number = second number) :
    itemLettersWith first items = itemLettersWith second items := by
  match items with
  | [] => rw [itemLettersWith, itemLettersWith]
  | [item] =>
    rw [Value.itemReals, Value.itemReals, List.append_nil] at alike
    rw [itemLettersWith, itemLettersWith, lettersWith_congr alike]
  | item :: next :: items =>
    rw [Value.itemReals, List.forall_mem_append] at alike
    rw [itemLettersWith, itemLettersWith, lettersWith_congr alike.1,
      itemLettersWith_congr alike.2]

theorem entryLettersWith_congr {first second : Binary64 → List Char}
    {entries : List (String × Value)}
    (alike : ∀ number ∈ Value.entryReals entries, first number = second number) :
    entryLettersWith first entries = entryLettersWith second entries := by
  match entries with
  | [] => rw [entryLettersWith, entryLettersWith]
  | [(key, value)] =>
    rw [Value.entryReals, Value.entryReals, List.append_nil] at alike
    rw [entryLettersWith, entryLettersWith, lettersWith_congr alike]
  | (key, value) :: next :: entries =>
    rw [Value.entryReals, List.forall_mem_append] at alike
    rw [entryLettersWith, entryLettersWith, lettersWith_congr alike.1,
      entryLettersWith_congr alike.2]

end

/-! ## Texts of doubles hold no delimiter -/

def isNumberLetter (letter : Char) : Bool :=
  isPlainLetter letter || letter = 'e' || letter = '+'

theorem isNumberLetter_of_isPlainLetter {letters : List Char}
    (plain : ∀ letter ∈ letters, isPlainLetter letter = true) :
    ∀ letter ∈ letters, isNumberLetter letter = true := by
  intro letter member
  rw [isNumberLetter, plain letter member, Bool.true_or, Bool.true_or]

theorem undivided_of_isNumberLetter {letters : List Char}
    (ofNumber : ∀ letter ∈ letters, isNumberLetter letter = true) : Undivided letters := by
  intro letter member
  rw [← Bool.not_eq_true]
  intro delimits
  have noNumber : isNumberLetter letter = false := by
    rw [isDelimiter, Bool.or_eq_true, Bool.or_eq_true, decide_eq_true_eq, decide_eq_true_eq,
      decide_eq_true_eq] at delimits
    rcases delimits with (rfl | rfl) | rfl <;> decide
  rw [ofNumber letter member] at noNumber
  cases noNumber

theorem isPlainLetter_signed (number : Int) :
    ∀ letter ∈ Digits.signed number, isPlainLetter letter = true := by
  cases number with
  | ofNat size => exact isPlainLetter_of_allDecimal (Digits.allDecimal_decimal size)
  | negSucc size =>
    rw [Digits.signed, List.forall_mem_cons]
    exact ⟨rfl, isPlainLetter_of_allDecimal (Digits.allDecimal_decimal _)⟩

theorem isNumberLetter_withSign {number : Binary64} {letters : List Char}
    (ofNumber : ∀ letter ∈ letters, isNumberLetter letter = true) :
    ∀ letter ∈ Shortest.withSign number letters, isNumberLetter letter = true := by
  rw [Shortest.withSign]
  split
  · rw [List.forall_mem_cons]
    exact ⟨rfl, ofNumber⟩
  · exact ofNumber

theorem isNumberLetter_scientific (decimal : Decimal) :
    ∀ letter ∈ Shortest.scientific decimal, isNumberLetter letter = true := by
  have digit := isNumberLetter_of_isPlainLetter
    (isPlainLetter_of_allDecimal (Digits.allDecimal_decimal decimal.digits))
  have powerLetter := fun power : Int =>
    isNumberLetter_of_isPlainLetter (isPlainLetter_signed power)
  intro letter member
  rw [Shortest.scientific, List.mem_append, List.mem_append, List.mem_cons] at member
  rcases member with (first | fraction) | rfl | power
  · exact digit letter (List.mem_of_mem_take first)
  · split at fraction
    · cases fraction
    · rcases List.mem_cons.mp fraction with rfl | later
      · rfl
      · exact digit letter (List.mem_of_mem_drop later)
  · rfl
  · split at power
    · exact powerLetter _ letter power
    · rcases List.mem_cons.mp power with rfl | later
      · rfl
      · exact powerLetter _ letter later

theorem isNumberLetter_real {number : Binary64} (finite : number.isFinite = true) :
    ∀ letter ∈ real number, isNumberLetter letter = true := by
  rw [real]
  cases isInteger : number.isIntegral with
  | true =>
    rw [if_pos rfl]
    exact isNumberLetter_of_isPlainLetter (isPlainLetter_signed _)
  | false =>
    have notZero := isZero_of_not_isIntegral isInteger
    rw [if_neg Bool.false_ne_true, if_pos finite]
    rcases compact_of_not_isZero notZero with ⟨-, written⟩ | ⟨-, written⟩
    · rcases Shortest.withPoint_eq_pointed (Shortest.digits_decimal .even notZero) with
        ⟨places, count, pointed⟩
      rw [written, pointed]
      exact isNumberLetter_withSign
        (isNumberLetter_of_isPlainLetter (isPlainLetter_pointed places count))
    · rw [written]
      exact isNumberLetter_withSign (isNumberLetter_scientific _)

/-- What is no finite number is written alike inside and outside, and a finite
double if it is written alike. -/
theorem real_eq_ownReal_iff_of_isFinite (number : Binary64) :
    real number = ownReal number ↔ (number.isFinite = true → WrittenAlike number) := by
  cases finite : number.isFinite with
  | true => rw [real_eq_ownReal_iff finite, forall_prop_of_true rfl]
  | false =>
    rw [real_of_not_isFinite finite, ownReal, finite, if_neg Bool.false_ne_true]
    exact iff_of_true rfl (fun impossible => absurd impossible Bool.false_ne_true)

theorem undivided_of_not_isFinite {number : Binary64} (infinite : number.isFinite = false) :
    Undivided (string (FixedPoint.text number)) := by
  have words : FixedPoint.text number = "NaN" ∨ FixedPoint.text number = "-Inf" ∨
      FixedPoint.text number = "+Inf" := by
    rw [FixedPoint.text, infinite]
    cases number.isNaN <;> cases number.isNegative <;> simp
  rcases words with word | word | word <;>
    · rw [word, undivided_iff]
      decide

theorem undivided_real (number : Binary64) : Undivided (real number) := by
  cases finite : number.isFinite with
  | true => exact undivided_of_isNumberLetter (isNumberLetter_real finite)
  | false =>
    rw [real_of_not_isFinite finite]
    exact undivided_of_not_isFinite finite

theorem undivided_ownReal (number : Binary64) : Undivided (ownReal number) := by
  cases finite : number.isFinite with
  | true =>
    rw [ownReal_of_isFinite finite]
    exact undivided_of_isNumberLetter
      (isNumberLetter_of_isPlainLetter (isPlainLetter_finite number))
  | false =>
    rw [ownReal, finite, if_neg Bool.false_ne_true]
    exact undivided_of_not_isFinite finite

/-- The JSON text of a value shows each double as it is written of its own
exactly if each finite one is written alike. -/
theorem letters_eq_ownReals_iff (value : Value) :
    letters value = lettersWith ownReal value ↔
      ∀ number ∈ value.reals, number.isFinite = true → WrittenAlike number := by
  rw [letters_eq_lettersWith]
  constructor
  · intro same number member
    have undivided : ∀ number ∈ value.reals, Undivided (real number) ∧ Undivided (ownReal number) :=
      fun number _ => ⟨undivided_real number, undivided_ownReal number⟩
    have closes : Closes [] := by
      intro letter none
      cases none
    rcases lettersWith_append_inj undivided closes closes (congrArg (· ++ []) same) with ⟨alike, -⟩
    exact (real_eq_ownReal_iff_of_isFinite number).mp (alike number member)
  · intro alike
    apply lettersWith_congr
    intro number member
    exact (real_eq_ownReal_iff_of_isFinite number).mpr (alike number member)

end Json

namespace Classic

/-- Where a list or a map is not written as a rule line, its text is the same
inside and outside of rules: each double inside, at any depth, has its JSON
text.  This is the text that the double has of its own, a whole number or at
most six places, exactly if the double is written alike; and the whole text is
one with the texts of the doubles on their own exactly if all of its finite
doubles are written alike. -/
theorem reals_of_render {rulesExpected : Bool} {value : Value}
    (nested : (∃ items, value = .list items) ∨ ∃ entries, value = .map entries)
    (noRule : ruleLine? rulesExpected value = none) :
    plainText value = render rulesExpected value ∧
      (render rulesExpected value).toList = Json.lettersWith Json.real value ∧
      (∀ number : Binary64, number.isFinite = true →
        (String.ofList (Json.real number) = FixedPoint.text number ↔ Json.WrittenAlike number)) ∧
      ((render rulesExpected value).toList = Json.lettersWith Json.ownReal value ↔
        ∀ number ∈ value.reals, number.isFinite = true → Json.WrittenAlike number) := by
  have rendered : render rulesExpected value = Json.text value := by
    rcases nested with ⟨items, rfl⟩ | ⟨entries, rfl⟩
    · rfl
    · exact render_map noRule
  have plain : plainText value = Json.text value := by
    rcases nested with ⟨items, rfl⟩ | ⟨entries, rfl⟩ <;> rfl
  rw [rendered, plain, Json.text, String.toList_ofList]
  refine ⟨rfl, Json.letters_eq_lettersWith value, ?_, Json.letters_eq_ownReals_iff value⟩
  intro number finite
  rw [← Json.real_eq_ownReal_iff finite, Json.ownReal, if_pos finite, ← String.toList_inj,
    String.toList_ofList]

def nestedRate : Value :=
  .map [("rates", .list [.real ⟨0x4004000000000000⟩, .text "max"]), ("flush", .integer 1)]

theorem reals_of_render_nestedRate :
    ruleLine? true nestedRate = none ∧
      plainText nestedRate = render true nestedRate ∧
      (render true nestedRate).toList = Json.lettersWith Json.real nestedRate ∧
      (∀ number : Binary64, number.isFinite = true →
        (String.ofList (Json.real number) = FixedPoint.text number ↔ Json.WrittenAlike number)) ∧
      ((render true nestedRate).toList = Json.lettersWith Json.ownReal nestedRate ↔
        ∀ number ∈ nestedRate.reals, number.isFinite = true → Json.WrittenAlike number) :=
  ⟨rfl, reals_of_render (.inr ⟨_, rfl⟩) rfl⟩

/-- A double with more than six places keeps them inside a list. -/
theorem reals_of_render_places :
    Binary64.isFinite ⟨0x3ff3c0ca4283de1b⟩ = true ∧
      FixedPoint.text ⟨0x3ff3c0ca4283de1b⟩ = "1.234568" ∧
      render false (.list [.real ⟨0x3ff3c0ca4283de1b⟩]) = "[1.23456789]" ∧
      (render false (.list [.real ⟨0x3ff3c0ca4283de1b⟩])).toList ≠
        Json.lettersWith Json.ownReal (.list [.real ⟨0x3ff3c0ca4283de1b⟩]) := by
  refine ⟨by decide, by decide +kernel, by decide +kernel, by decide +kernel⟩

end Classic

end LogPipeline
