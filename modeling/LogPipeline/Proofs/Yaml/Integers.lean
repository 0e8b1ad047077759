import LogPipeline.Proofs.Number.Whole
import LogPipeline.Yaml.Resolution

namespace LogPipeline

/-!
# What the digits of a whole number mean

A plain scalar that is a whole number as it is usually written means that number
within 128 bits, and the double nearest to it beyond, where that is finite.
A tag can ask for the double at any size.  Either way nothing else is read from
the digits than the number itself.
-/

namespace Binary64

theorem parts?_decimal (number : Nat) (isMark : Char → Bool) :
    parts? Digits.isDecimal isMark (Digits.decimal number) =
      some { whole := Digits.decimal number, fraction := [], exponent := 0 } := by
  have digits := Digits.allDecimal_decimal number
  have nonempty : (Digits.decimal number).isEmpty = false :=
    List.isEmpty_eq_false_iff.mpr (Digits.decimal_ne_nil number)
  have taken : (Digits.decimal number).takeWhile Digits.isDecimal = Digits.decimal number :=
    List.takeWhile_eq_self_iff.mpr digits
  have dropped : (Digits.decimal number).dropWhile Digits.isDecimal = [] :=
    List.dropWhile_eq_nil_iff.mpr digits
  rw [parts?, taken, dropped]
  dsimp only
  rw [nonempty, Bool.false_and, if_neg Bool.false_ne_true]
  rfl

theorem digitsValue_decimal (number : Nat) :
    digitsValue 10 (Digits.decimal number) = number := by
  rw [digitsValue, Digits.read?_eq_spelled (Digits.decimal_ne_nil number)
    (Digits.allDecimal_decimal number), Digits.spelled_decimal, Option.getD_some]

/-- A finite double that the digits of a number are read as is the nearest to
it. -/
theorem eq_ofFraction_of_readUnsigned? {negative : Bool} {number : Nat} {read : Binary64}
    (found : readUnsigned? negative (Digits.decimal number) = some read)
    (finite : read.isFinite = true) : read = ofFraction negative number 1 := by
  rw [readUnsigned?, parts?_decimal, Option.map_some, Option.some.injEq] at found
  rw [← found] at finite ⊢
  dsimp only at finite ⊢
  rw [List.append_nil, digitsValue_decimal, ofDecimal] at finite ⊢
  split
  · rename_i little
    rcases little with rfl | little
    · rfl
    · exact absurd little (by rw [List.length_nil]; omega)
  · rename_i notLittle
    rw [if_neg notLittle] at finite
    split
    · rename_i large
      rw [if_pos large, not_isFinite_infinity] at finite
      cases finite
    · rw [List.length_nil, show (0 - ((0 : Nat) : Int)).toNat = 0 from rfl,
        show (-(0 - ((0 : Nat) : Int))).toNat = 0 from rfl, Nat.pow_eq, Nat.pow_zero,
        Nat.mul_one]

theorem read?_decimal (number : Nat) :
    read? (Digits.decimal number) = readUnsigned? false (Digits.decimal number) := by
  rw [read?.eq_def]
  split
  · rename_i plus
    exact absurd plus (Digits.decimal_ne_cons rfl)
  · rename_i minus
    exact absurd minus (Digits.decimal_ne_cons rfl)
  · rfl

/-- A finite double that a whole number is read as is the nearest to it. -/
theorem eq_ofInt_of_read? {number : Int} {read : Binary64}
    (found : read? (Digits.signed number) = some read) (finite : read.isFinite = true) :
    read = ofInt number := by
  cases number with
  | ofNat size =>
    have sign : decide (Int.ofNat size < 0) = false :=
      decide_eq_false (Int.not_lt.mpr (Int.natCast_nonneg size))
    rw [Digits.signed, read?_decimal] at found
    rw [ofInt, sign]
    exact eq_ofFraction_of_readUnsigned? found finite
  | negSucc size =>
    have sign : decide (Int.negSucc size < 0) = true := decide_eq_true (by omega)
    rw [Digits.signed, read?] at found
    rw [ofInt, sign]
    exact eq_ofFraction_of_readUnsigned? found finite

end Binary64

namespace Digits

theorem letter_of_mem_signed {number : Int} {letter : Char} (member : letter ∈ signed number) :
    isDecimal letter = true ∨ letter = '-' := by
  cases number with
  | ofNat size => exact .inl (allDecimal_decimal size letter member)
  | negSucc size =>
    rcases List.mem_cons.mp member with rfl | digit
    · exact .inr rfl
    · exact .inl (allDecimal_decimal _ letter digit)

/-- Whether a word has a letter that no whole number has. -/
def isWord (word : String) : Bool :=
  word.toList.any fun letter => !isDecimal letter && letter ≠ '-'

/-- No whole number is written as one of some words. -/
theorem contains_signed {words : List String} (allWords : words.all isWord = true) (number : Int) :
    words.contains (String.ofList (signed number)) = false := by
  rw [List.contains_eq_mem, decide_eq_false_iff_not]
  intro member
  have someLetter := List.all_eq_true.mp allWords _ member
  rw [isWord, String.toList_ofList, List.any_eq_true] at someLetter
  rcases someLetter with ⟨letter, letterMember, other⟩
  rcases letter_of_mem_signed letterMember with digit | rfl
  · rw [digit] at other
    cases other
  · cases other

end Digits

namespace Yaml

namespace Meaning

open Digits (signed decimal)

theorem unsigned_decimal (number : Nat) : unsigned (decimal number) = decimal number := by
  rw [unsigned.eq_def]
  split
  · rename_i plus
    exact absurd plus (Digits.decimal_ne_cons rfl)
  · rename_i minus
    exact absurd minus (Digits.decimal_ne_cons rfl)
  · rfl

theorem unsigned_signed (number : Int) : unsigned (signed number) = decimal number.natAbs := by
  cases number with
  | ofNat size => exact unsigned_decimal size
  | negSucc size => rfl

theorem hasSuperfluousZero_signed (number : Int) : hasSuperfluousZero (signed number) = false := by
  rw [hasSuperfluousZero, unsigned_signed]
  split
  · rename_i digit rest zero
    rcases Nat.eq_zero_or_pos number.natAbs with nothing | positive
    · rw [nothing, Digits.decimal_of_lt (by omega)] at zero
      cases zero
    · have noZero := Digits.head?_decimal positive
      rw [zero] at noZero
      exact absurd rfl noZero
  · rfl

theorem magnitude?_decimal (number : Nat) : magnitude? (decimal number) = some number := by
  have digits := Digits.allDecimal_decimal number
  rw [magnitude?.eq_def]
  -- No base is announced, since none of the letters that do so is a digit.
  split
  · rename_i base
    rw [base] at digits
    exact absurd (digits 'x' (List.mem_cons_of_mem _ List.mem_cons_self)) (by decide)
  · rename_i base
    rw [base] at digits
    exact absurd (digits 'o' (List.mem_cons_of_mem _ List.mem_cons_self)) (by decide)
  · rename_i base
    rw [base] at digits
    exact absurd (digits 'b' (List.mem_cons_of_mem _ List.mem_cons_self)) (by decide)
  · rw [Digits.read?_eq_spelled (Digits.decimal_ne_nil number) digits, Digits.spelled_decimal]

/-- A whole number has a place in 128 bits, signed or not. -/
def FitsWide (number : Int) : Prop :=
  -(signedReach : Int) ≤ number ∧ number < 2 * signedReach

theorem integer?_decimal (number : Nat) :
    integer? (decimal number) = if number < 2 * signedReach then some (number : Int) else none := by
  have noZero := hasSuperfluousZero_signed number
  rw [Digits.signed_of_nonneg] at noZero
  rw [integer?, noZero, if_neg Bool.false_ne_true, magnitude?_decimal]
  · intro rest minus
    exact Digits.decimal_ne_cons rfl minus
  · intro rest plus
    exact Digits.decimal_ne_cons rfl plus

theorem integer?_signed (number : Int) :
    (FitsWide number ∧ integer? (signed number) = some number) ∨
      (¬ FitsWide number ∧ integer? (signed number) = none) := by
  rw [FitsWide]
  cases number with
  | ofNat size =>
    rw [Digits.signed, integer?_decimal, Int.ofNat_eq_natCast]
    by_cases fits : size < 2 * signedReach
    · exact .inl ⟨by omega, if_pos fits⟩
    · exact .inr ⟨by omega, if_neg fits⟩
  | negSucc size =>
    have noZero := hasSuperfluousZero_signed (.negSucc size)
    rw [Digits.signed] at noZero ⊢
    rw [integer?, noZero, if_neg Bool.false_ne_true, magnitude?_decimal]
    dsimp only
    by_cases fits : size + 1 ≤ signedReach
    · exact .inl ⟨by omega, if_pos fits⟩
    · exact .inr ⟨by omega, if_neg fits⟩

theorem eq_ofInt_of_real? {number : Int} {read : Binary64}
    (found : real? (String.ofList (signed number)) = some read) :
    read = Binary64.ofInt number ∧ read.isFinite = true := by
  rw [real?, Digits.contains_signed (by decide), Digits.contains_signed (by decide),
    Digits.contains_signed (by decide), if_neg Bool.false_ne_true, if_neg Bool.false_ne_true,
    if_neg Bool.false_ne_true, String.toList_ofList] at found
  split at found
  · rename_i nearest isRead
    split at found
    · rename_i finite
      cases found
      exact ⟨Binary64.eq_ofInt_of_read? isRead finite, finite⟩
    · cases found
  · cases found

/-- What the digits of a whole number mean under some tag. -/
inductive OfInteger (tag : Option Tag) (number : Int) : Meaning → Prop
  | integer : OfInteger tag number (.integer number)
  | text : OfInteger tag number (.text (String.ofList (signed number)))
  | real (finite : (Binary64.ofInt number).isFinite = true)
      (asked : tag = some (Tag.forKind "float") ∨ ¬ FitsWide number) :
      OfInteger tag number (.real (Binary64.ofInt number))

theorem truth?_signed (number : Int) : truth? (String.ofList (signed number)) = none := by
  rw [truth?, Digits.contains_signed (by decide), Digits.contains_signed (by decide),
    if_neg Bool.false_ne_true, if_neg Bool.false_ne_true]

theorem isNothing_signed (number : Int) : isNothing (String.ofList (signed number)) = false :=
  Digits.contains_signed (by decide) number

theorem isEmpty_signed (number : Int) : (String.ofList (signed number)).isEmpty = false := by
  rw [← Bool.not_eq_true, String.isEmpty_iff]
  intro empty
  have noLetters : signed number = [] := by
    rw [← @String.toList_ofList (signed number), empty]
    rfl
  cases number with
  | ofNat size => exact Digits.decimal_ne_nil size noLetters
  | negSucc size => cases noLetters

theorem ofInteger_ofPlain (tag : Option Tag) (number : Int) :
    OfInteger tag number (ofPlain (String.ofList (signed number))) := by
  rw [ofPlain, isEmpty_signed, isNothing_signed, Bool.false_or, if_neg Bool.false_ne_true,
    truth?_signed, String.toList_ofList, hasSuperfluousZero_signed]
  rcases integer?_signed number with ⟨-, isRead⟩ | ⟨beyond, isRead⟩
  · rw [isRead]
    exact .integer
  · rw [isRead]
    dsimp only
    rw [if_neg Bool.false_ne_true]
    split
    · rename_i nearest found
      rcases eq_ofInt_of_real? found with ⟨rfl, finite⟩
      exact .real finite (.inr beyond)
    · exact .text

theorem ofInteger_ofStyle (tag : Option Tag) (style : ScalarStyle) (number : Int) :
    OfInteger tag number (ofStyle style (String.ofList (signed number))) := by
  rw [ofStyle]
  split
  · exact ofInteger_ofPlain tag number
  · exact .text

/-- Whatever its tag, the digits of a whole number mean the number, its digits
or the double nearest to it, and the double only where the tag asks for it or
128 bits do not suffice. -/
theorem ofInteger_of_ofTagged? {tag : Option Tag} {style : ScalarStyle} {number : Int}
    {meaning : Meaning}
    (found : ofTagged? tag style (String.ofList (signed number)) = some meaning) :
    OfInteger tag number meaning := by
  cases tag with
  | none =>
    cases found
    exact ofInteger_ofStyle none style number
  | some asked =>
    rw [ofTagged?] at found
    split at found
    · rw [truth?_signed] at found
      cases found
    · split at found
      · rw [String.toList_ofList, Option.map_eq_some_iff] at found
        rcases found with ⟨read, isRead, rfl⟩
        rcases integer?_signed number with ⟨-, own⟩ | ⟨-, own⟩
        · obtain rfl : number = read := Option.some.inj (own.symm.trans isRead)
          exact .integer
        · rw [own] at isRead
          cases isRead
      · split at found
        · rename_i isFloat
          rcases Option.map_eq_some_iff.mp found with ⟨read, isRead, rfl⟩
          rcases eq_ofInt_of_real? isRead with ⟨rfl, finite⟩
          exact .real finite (.inl (congrArg some isFloat))
        · split at found
          · rw [isNothing_signed] at found
            cases found
          · split at found
            · cases found
              exact ofInteger_ofStyle _ style number
            · cases found
              exact .text

end Meaning

end Yaml

end LogPipeline
