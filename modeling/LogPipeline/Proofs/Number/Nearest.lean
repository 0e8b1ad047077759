import Mathlib.Algebra.Order.Field.Basic
import Mathlib.Algebra.Order.Field.Rat
import Mathlib.Data.Nat.Cast.Field
import Mathlib.Tactic.FieldSimp
import Mathlib.Tactic.Linarith
import Mathlib.Tactic.NormNum
import Mathlib.Tactic.Ring
import LogPipeline.Proofs.Number.Whole
import LogPipeline.Proofs.Text.Spans

namespace LogPipeline

/-!
# The decimal nearest to a double

The text of a finite double is read back here as a rational number and compared
with the exact value of the double.  It is a decimal in its usual form, with at
most six places, and no decimal with six places is nearer to the double.
Half a millionth is therefore the most by which the two differ, and a whole
number of any size is written as it is.
-/

namespace Rounding

theorem nearestEven_near (numerator : Nat) {denominator : Nat} (positive : 0 < denominator) :
    |(nearestEven numerator denominator : ℚ) - numerator / denominator| ≤ 1 / 2 := by
  have both : 2 * numerator ≤ 2 * (denominator * nearestEven numerator denominator) + denominator ∧
      2 * (denominator * nearestEven numerator denominator) ≤ 2 * numerator + denominator := by
    have parts := Nat.div_add_mod numerator denominator
    have rest := Nat.mod_lt numerator positive
    rw [nearestEven]
    split
    · rw [Nat.mul_succ]
      omega
    · split
      · omega
      · split
        · omega
        · rw [Nat.mul_succ]
          omega
  have positiveRat : (0 : ℚ) < denominator := Nat.cast_pos.mpr positive
  have lower : (2 * numerator : ℚ) ≤
      2 * (denominator * nearestEven numerator denominator) + denominator := mod_cast both.1
  have upper : (2 * (denominator * nearestEven numerator denominator) : ℚ) ≤
      2 * numerator + denominator := mod_cast both.2
  have difference : (nearestEven numerator denominator : ℚ) - numerator / denominator =
      (denominator * nearestEven numerator denominator - numerator) / denominator := by
    field_simp
  rw [difference, abs_div, abs_of_pos positiveRat, div_le_iff₀ positiveRat, abs_le]
  constructor <;> linarith

/-- What is at most half a unit away from a number is nearest to it among the
whole numbers. -/
theorem nearest_of_near {exact : ℚ} {count : ℤ} (near : |(count : ℚ) - exact| ≤ 1 / 2)
    (other : ℤ) : |(count : ℚ) - exact| ≤ |(other : ℚ) - exact| := by
  by_cases same : count = other
  · rw [same]
  · have apart : (1 : ℚ) ≤ |(count : ℚ) - other| := by
      have atLeastOne : (1 : ℤ) ≤ |count - other| := Int.one_le_abs (sub_ne_zero.mpr same)
      exact_mod_cast atLeastOne
    have way := abs_sub_le (count : ℚ) exact other
    rw [abs_sub_comm exact] at way
    linarith

end Rounding

namespace Binary64

/-- The exact value of a finite number. -/
def value (number : Binary64) : ℚ :=
  (if number.isNegative then -1 else 1) * (number.numerator / number.denominator)

/-- The value of a number that is whole. -/
theorem value_of_whole {number : Binary64} (whole : number.numerator % number.denominator = 0) :
    number.value = Json.wholeNumber number := by
  have positive : (number.denominator : ℚ) ≠ 0 := by
    exact_mod_cast Nat.ne_of_gt number.denominator_pos
  have quotient : (number.numerator / number.denominator : ℚ) =
      (number.numerator / number.denominator : Nat) :=
    (Nat.cast_div (Nat.dvd_of_mod_eq_zero whole) positive).symm
  rw [value, quotient, Json.wholeNumber]
  split
  · rw [Int.cast_neg, Int.cast_natCast, neg_one_mul]
  · rw [Int.cast_natCast, one_mul]

theorem abs_value (number : Binary64) :
    |number.value| = number.numerator / number.denominator := by
  have magnitude : (0 : ℚ) ≤ number.numerator / number.denominator :=
    div_nonneg (Nat.cast_nonneg _) (Nat.cast_nonneg _)
  rw [value]
  split
  · rw [neg_one_mul, abs_neg, abs_of_nonneg magnitude]
  · rw [one_mul, abs_of_nonneg magnitude]

/-- A number whose value is whole is whole. -/
theorem whole_of_value {number : Binary64} {whole : ℤ} (isWhole : number.value = whole) :
    number.numerator % number.denominator = 0 := by
  have positive : (number.denominator : ℚ) ≠ 0 := by
    exact_mod_cast Nat.ne_of_gt number.denominator_pos
  have magnitude := abs_value number
  rw [isWhole, eq_div_iff positive, ← Int.cast_abs, Int.abs_eq_natAbs, Int.cast_natCast]
    at magnitude
  have multiple : whole.natAbs * number.denominator = number.numerator := by
    exact_mod_cast magnitude
  rw [← multiple]
  exact Nat.mul_mod_left _ _

end Binary64

namespace FixedPoint

/-! ## Reading a decimal -/

/-- The magnitude of digits with at most one point between them. -/
def magnitudeOf (letters : List Char) : ℚ :=
  let places := (letters.dropWhile (· ≠ '.')).tail
  Digits.spelled 10 (letters.takeWhile (· ≠ '.')) + Digits.spelled 10 places / 10 ^ places.length

/-- The number that a decimal denotes: its digits up to a point, and after it
those of its fraction, with a minus sign at will. -/
def valueOf : List Char → ℚ
  | '-' :: letters => -magnitudeOf letters
  | letters => magnitudeOf letters

/-- A row of digits without a superfluous zero in front. -/
def IsWholePart (digits : List Char) : Prop :=
  digits ≠ [] ∧ Digits.AllDecimal digits ∧ (digits = ['0'] ∨ digits.head? ≠ some '0')

/-- Nothing, or a point and one to six digits of which the last is no zero. -/
def IsFraction (letters : List Char) : Prop :=
  letters = [] ∨ ∃ digits, letters = '.' :: digits ∧ digits ≠ [] ∧ digits.length ≤ places ∧
    Digits.AllDecimal digits ∧ digits.getLast? ≠ some '0'

/-- A decimal in its usual form: a minus sign at will, a whole part and a
fraction at will. -/
def IsUsual (letters : List Char) : Prop :=
  ∃ sign whole fraction, letters = sign ++ (whole ++ fraction) ∧ (sign = [] ∨ sign = ['-']) ∧
    IsWholePart whole ∧ IsFraction fraction

/-- A decimal that stands for an exact number. -/
structure StandsFor (exact : ℚ) (letters : List Char) : Prop where
  usual : IsUsual letters
  /-- No zero has a sign. -/
  signed : letters.head? = some '-' → valueOf letters < 0
  counted : ∃ count : ℤ, valueOf letters = count / 10 ^ 6
  near : |valueOf letters - exact| ≤ 1 / 2 * (1 / 10 ^ 6)
  nearest : ∀ count : ℤ, |valueOf letters - exact| ≤ |count / 10 ^ 6 - exact|
  whole : ∀ whole : ℤ, exact = whole → valueOf letters = whole ∧ letters = Digits.signed whole

theorem magnitudeOf_whole {digits : List Char} (allDigits : Digits.AllDecimal digits) :
    magnitudeOf digits = Digits.spelled 10 digits := by
  have noPoint : ∀ letter ∈ digits, decide (letter ≠ '.') = true := by
    intro letter member
    rw [decide_eq_true_eq]
    rintro rfl
    exact allDigits.notMem rfl member
  have taken : digits.takeWhile (· ≠ '.') = digits := List.takeWhile_eq_self_iff.mpr noPoint
  have dropped : digits.dropWhile (· ≠ '.') = [] := List.dropWhile_eq_nil_iff.mpr noPoint
  rw [magnitudeOf, taken, dropped]
  simp

theorem magnitudeOf_append {digits fraction : List Char} (allDigits : Digits.AllDecimal digits) :
    magnitudeOf (digits ++ '.' :: fraction) =
      Digits.spelled 10 digits + Digits.spelled 10 fraction / 10 ^ fraction.length := by
  have taken : (digits ++ '.' :: fraction).takeWhile (· ≠ '.') = digits := by
    rw [takeWhile_append_iff]
    constructor
    · intro letter member
      rw [decide_eq_true_eq]
      rintro rfl
      exact allDigits.notMem rfl member
    · rintro _ ⟨⟩
      rfl
  rw [magnitudeOf, taken, dropWhile_of_takeWhile taken, List.tail_cons]

theorem magnitudeOf_pointed {kept : Nat} (someKept : 0 < kept) (number : Nat) :
    magnitudeOf (Digits.pointed kept number) = number / 10 ^ kept := by
  have below : number % 10 ^ kept < 10 ^ kept := Nat.mod_lt number (Nat.pow_pos (by omega))
  have parts : ((10 ^ kept * (number / 10 ^ kept) + number % 10 ^ kept : Nat) : ℚ) = number := by
    rw [Nat.div_add_mod]
  rw [Digits.pointed, magnitudeOf_append (Digits.allDecimal_decimal _), Digits.spelled_decimal,
    Digits.spelled_paddedDecimal, Digits.length_paddedDecimal below someKept, ← parts]
  push_cast
  field_simp

/-- A count of millionths is written as what it amounts to. -/
theorem magnitudeOf_unsigned (count : Nat) : magnitudeOf (unsigned count) = count / 10 ^ 6 := by
  rcases unsigned_cases count with
    ⟨⟨units, same⟩, written⟩ | ⟨kept, number, someKept, atMost, -, counted, written⟩
  · rw [written, magnitudeOf_whole (Digits.allDecimal_decimal _), Digits.spelled_decimal, same,
      Nat.mul_div_cancel_left _ (by decide), unit_eq, places]
    push_cast
    ring
  · have power : (10 : ℚ) ^ 6 = 10 ^ kept * 10 ^ (places - kept) := by
      rw [← pow_add, Nat.add_sub_cancel' atMost, places]
    rw [written, magnitudeOf_pointed someKept, counted, power]
    push_cast
    field_simp

theorem isWholePart_decimal (number : Nat) : IsWholePart (Digits.decimal number) := by
  refine ⟨Digits.decimal_ne_nil number, Digits.allDecimal_decimal number, ?_⟩
  rcases Nat.eq_zero_or_pos number with rfl | positive
  · exact .inl (Digits.decimal_of_lt (by omega))
  · exact .inr (Digits.head?_decimal positive)

theorem getLast?_paddedDecimal {kept number : Nat} (lastPlace : number % 10 ≠ 0) :
    (Digits.paddedDecimal kept number).getLast? ≠ some '0' := by
  intro isZero
  rcases List.eq_nil_or_concat (Digits.paddedDecimal kept number) with none | ⟨front, last, row⟩
  · rw [none] at isZero
    cases isZero
  · rw [row, List.concat_eq_append, List.getLast?_concat, Option.some_inj] at isZero
    have spells := Digits.spelled_paddedDecimal kept number
    rw [row, List.concat_eq_append, Digits.spelled_concat, isZero] at spells
    change _ + 0 = number at spells
    omega

/-- The text of a count is in its usual form. -/
theorem unsigned_parts (count : Nat) :
    ∃ whole fraction, unsigned count = whole ++ fraction ∧ IsWholePart whole ∧
      IsFraction fraction := by
  rcases unsigned_cases count with
    ⟨-, written⟩ | ⟨kept, number, someKept, atMost, lastPlace, -, written⟩
  · exact ⟨_, [], by rw [written, List.append_nil], isWholePart_decimal _, .inl rfl⟩
  · have below : number % 10 ^ kept < 10 ^ kept := Nat.mod_lt number (Nat.pow_pos (by omega))
    have length := Digits.length_paddedDecimal below someKept
    have lastKept : number % 10 ^ kept % 10 ≠ 0 := by
      rw [Nat.mod_mod_of_dvd _ (ten_dvd_pow someKept)]
      exact lastPlace
    refine ⟨_, _, written, isWholePart_decimal _, .inr ⟨_, rfl, ?_, ?_, ?_, ?_⟩⟩
    · exact List.ne_nil_of_length_pos (by omega)
    · omega
    · exact Digits.allDecimal_paddedDecimal _ _
    · exact getLast?_paddedDecimal lastKept

theorem head?_unsigned (count : Nat) : (unsigned count).head? ≠ some '-' := by
  rcases unsigned_parts count with ⟨whole, fraction, written, ⟨nonempty, allDigits, -⟩, -⟩
  intro minus
  rw [written, List.head?_append_of_ne_nil _ nonempty] at minus
  exact allDigits.notMem rfl (List.mem_of_mem_head? minus)

/-- Without a minus sign in front a decimal is its magnitude. -/
theorem valueOf_of_head? {letters : List Char} (noMinus : letters.head? ≠ some '-') :
    valueOf letters = magnitudeOf letters := by
  rw [valueOf.eq_def]
  split
  · exact absurd rfl noMinus
  · rfl

/-! ## The text of a double -/

def signedCount (number : Binary64) : ℤ :=
  if number.isNegative then -(millionths number : ℤ) else millionths number

theorem signedCount_near (number : Binary64) :
    |(signedCount number : ℚ) - number.value * 10 ^ 6| ≤ 1 / 2 := by
  have rounded := Rounding.nearestEven_near (number.numerator * unit) number.denominator_pos
  have scaled : ((number.numerator * unit : Nat) : ℚ) / number.denominator =
      number.numerator / number.denominator * 10 ^ 6 := by
    rw [unit_eq, places]
    push_cast
    ring
  rw [scaled] at rounded
  rw [signedCount, Binary64.value, millionths]
  split
  · rw [Int.cast_neg, Int.cast_natCast, neg_one_mul, neg_mul, sub_neg_eq_add, neg_add_eq_sub,
      abs_sub_comm]
    exact rounded
  · rw [Int.cast_natCast, one_mul]
    exact rounded

/-- A finite number is written as its count, and only a count other than zero
has a minus sign. -/
theorem finite_cases (number : Binary64) :
    (signedCount number < 0 ∧ finite number = '-' :: unsigned (millionths number)) ∨
      0 ≤ signedCount number ∧ finite number = unsigned (millionths number) := by
  rw [finite, signedCount]
  by_cases negative : number.isNegative = true
  · by_cases nothing : millionths number = 0
    · right
      simp [nothing]
    · left
      simp [negative, nothing]
      omega
  · right
    simp [negative]

theorem valueOf_finite (number : Binary64) :
    valueOf (finite number) = signedCount number / 10 ^ 6 := by
  have magnitude : ((signedCount number).natAbs : ℤ) = millionths number := by
    rw [signedCount]
    split <;> omega
  rcases finite_cases number with ⟨negative, written⟩ | ⟨nonnegative, written⟩
  · rw [written, valueOf, magnitudeOf_unsigned, neg_div', ← Int.cast_natCast, ← magnitude]
    congr 1
    rw [← Int.cast_neg]
    congr 1
    omega
  · rw [written, valueOf_of_head? (head?_unsigned _), magnitudeOf_unsigned, ← Int.cast_natCast,
      ← magnitude, Int.natAbs_of_nonneg nonnegative]

theorem isUsual_finite (number : Binary64) : IsUsual (finite number) := by
  rcases unsigned_parts (millionths number) with ⟨whole, fraction, parts, isWhole, isFraction⟩
  rcases finite_cases number with ⟨-, written⟩ | ⟨-, written⟩
  · exact ⟨['-'], whole, fraction, by rw [written, parts]; rfl, .inr rfl, isWhole, isFraction⟩
  · exact ⟨[], whole, fraction, by rw [written, parts]; rfl, .inl rfl, isWhole, isFraction⟩

/-- A minus sign stands in front of negative decimals only. -/
theorem negative_of_head?_finite {number : Binary64} (minus : (finite number).head? = some '-') :
    valueOf (finite number) < 0 := by
  rcases finite_cases number with ⟨negative, -⟩ | ⟨-, written⟩
  · rw [valueOf_finite]
    have below : (signedCount number : ℚ) < 0 := mod_cast negative
    exact div_neg_of_neg_of_pos below (by norm_num)
  · rw [written] at minus
    exact absurd minus (head?_unsigned _)

/-- The distance of a count of millionths from a number. -/
theorem abs_count_sub (count : ℚ) (exact : ℚ) :
    |count / 10 ^ 6 - exact| = |count - exact * 10 ^ 6| / 10 ^ 6 := by
  have positive : (0 : ℚ) < 10 ^ 6 := by norm_num
  rw [← abs_of_pos positive, ← abs_div, abs_of_pos positive, sub_div, mul_div_assoc,
    div_self (ne_of_gt positive), mul_one]

theorem nearest_finite (number : Binary64) (count : ℤ) :
    |valueOf (finite number) - number.value| ≤ |count / 10 ^ 6 - number.value| := by
  rw [valueOf_finite, abs_count_sub, abs_count_sub]
  exact div_le_div_of_nonneg_right (Rounding.nearest_of_near (signedCount_near number) count)
    (by norm_num)

/-- Every finite double is written as the decimal of at most six places that is
nearest to it. -/
theorem standsFor_text {number : Binary64} (isFinite : number.isFinite = true) :
    StandsFor number.value (text number).toList := by
  have letters : (text number).toList = finite number := by
    rw [text_of_isFinite isFinite, String.toList_ofList]
  rw [letters]
  refine ⟨isUsual_finite number, negative_of_head?_finite, ⟨_, valueOf_finite number⟩, ?_,
    nearest_finite number, ?_⟩
  · rw [valueOf_finite, abs_count_sub, ← div_eq_mul_one_div]
    exact div_le_div_of_nonneg_right (signedCount_near number) (by norm_num)
  · intro whole isWhole
    constructor
    · have nearest := nearest_finite number (whole * 10 ^ 6)
      have exactly : ((whole * 10 ^ 6 : ℤ) : ℚ) / 10 ^ 6 = number.value := by
        rw [isWhole, Int.cast_mul, Int.cast_pow, Int.cast_ofNat, mul_div_cancel_right₀]
        norm_num
      rw [exactly, sub_self, abs_zero, abs_nonpos_iff, sub_eq_zero] at nearest
      rw [nearest, isWhole]
    · have integral := Binary64.whole_of_value isWhole
      rw [Binary64.value_of_whole integral, Int.cast_inj] at isWhole
      rw [← letters, text_of_whole isFinite integral, String.toList_ofList, isWhole]

/-- One part in 128 lies in the middle between two decimals of six places, of
which the one with the even last place is written. -/
theorem standsFor_text_middle :
    Binary64.isFinite ⟨0xbf80000000000000⟩ = true ∧ StandsFor (-1 / 128) "-0.007812".toList := by
  have isFinite : Binary64.isFinite ⟨0xbf80000000000000⟩ = true := by decide
  have value : Binary64.value ⟨0xbf80000000000000⟩ = -1 / 128 := by
    have negative : Binary64.isNegative ⟨0xbf80000000000000⟩ = true := by decide
    have numerator : Binary64.numerator ⟨0xbf80000000000000⟩ = 2 ^ 52 := by decide +kernel
    have denominator : Binary64.denominator ⟨0xbf80000000000000⟩ = 2 ^ 59 := by decide +kernel
    rw [Binary64.value, negative, numerator, denominator]
    norm_num
  have written : text ⟨0xbf80000000000000⟩ = "-0.007812" := by decide +kernel
  have stands := standsFor_text isFinite
  rw [value, written] at stands
  exact ⟨isFinite, stands⟩

/-- The least whole number beyond those of sixty-four bits with a sign. -/
example : text ⟨0x43e0000000000000⟩ = "9223372036854775808" := by decide +kernel

end FixedPoint

end LogPipeline
