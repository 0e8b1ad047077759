import LogPipeline.Number.Digits
import LogPipeline.Number.Rounding
import LogPipeline.Number.Binary64

namespace LogPipeline

namespace FixedPoint

/-!
# Decimal text with at most six places

A number in the configuration text is the multiple of a millionth nearest to
its exact value, written without superfluous zeros.  A negative number that
rounds to nothing is written as zero, without a sign.  The two infinities and
what is no number have fixed words.
-/

/-- How many places the text has at most. -/
def places : Nat := 6

def unit : Nat := Nat.pow 10 places

/-- The magnitude of a finite number as a count of millionths, rounded to the
nearest, an even count of two equally near ones. -/
def millionths (number : Binary64) : Nat :=
  Rounding.nearestEven (number.numerator * unit) number.denominator

def withoutTrailingZeros (digits : List Char) : List Char :=
  (digits.reverse.dropWhile (· = '0')).reverse

/-- A count of millionths as digits, with a point and the places only where
the count is no whole number of units. -/
def unsigned (count : Nat) : List Char :=
  let whole := Digits.decimal (count / unit)
  let rest := withoutTrailingZeros (Digits.paddedDecimal places (count % unit))
  if rest.isEmpty then whole else whole ++ '.' :: rest

/-- The text of a finite number. -/
def finite (number : Binary64) : List Char :=
  let count := millionths number
  if number.isNegative && count ≠ 0 then '-' :: unsigned count else unsigned count

/-- The text of any number. -/
def text (number : Binary64) : String :=
  if number.isNaN then "NaN"
  else if number.isFinite then String.ofList (finite number)
  else if number.isNegative then "-Inf"
  else "+Inf"

end FixedPoint

end LogPipeline
