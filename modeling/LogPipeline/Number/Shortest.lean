import LogPipeline.Number.Digits
import LogPipeline.Number.Binary64

namespace LogPipeline

/-!
# The shortest digits that read back

Among the decimals that a reader rounding to the nearest double takes for a
given number, the one with the fewest digits is chosen, and among those the
one nearest to the number.  The digits are found by trying one digit, two
digits and so on: on each grid of decimals only the two neighbours of the
exact value can be the nearest point.  Where both are equally near, a text with
all its digits takes the upper one, and a text that may have an exponent takes
the one with an even last digit.
-/

/-- A positive decimal `digits · 10^exponent`. -/
structure Decimal where
  digits : Nat
  exponent : Int

namespace Decimal

def numerator (decimal : Decimal) : Nat :=
  decimal.digits * Nat.pow 10 decimal.exponent.toNat

def denominator (decimal : Decimal) : Nat :=
  Nat.pow 10 (-decimal.exponent).toNat

end Decimal

namespace Shortest

/-- Which of two equally near decimals is chosen. -/
inductive Tie where
  | upper
  | even
deriving DecidableEq

/-- The decimals that read back as one number: those between two fractions of
one denominator, the ends included or not.  `middle` is the number itself. -/
structure Interval where
  low : Nat
  middle : Nat
  high : Nat
  denominator : Nat
  closed : Bool

/-- The interval of a finite number: half the distance to each neighbour, with
the ends included exactly when the significand is even.  Below a power of two
the neighbours are twice as dense. -/
def interval (number : Binary64) : Interval :=
  let scale := Nat.pow 2 number.power.toNat
  let narrow := number.fractionField = 0 && 1 < number.exponentField
  { low := (4 * number.significand - if narrow then 1 else 2) * scale
    middle := 4 * number.significand * scale
    high := (4 * number.significand + 2) * scale
    denominator := 4 * number.denominator
    closed := number.significand % 2 = 0 }

namespace Interval

/-- Whether a decimal lies in the interval. -/
def contains (range : Interval) (decimal : Decimal) : Bool :=
  let point := decimal.numerator * range.denominator
  let low := range.low * decimal.denominator
  let high := range.high * decimal.denominator
  if range.closed then low ≤ point && point ≤ high else low < point && point < high

/-- The distance of a decimal from the number, as a numerator over the product
of the two denominators. -/
def distance (range : Interval) (decimal : Decimal) : Nat :=
  let point := decimal.numerator * range.denominator
  let middle := range.middle * decimal.denominator
  (point - middle) + (middle - point)

/-- The greatest point of the grid `10^exponent` that does not exceed the number. -/
def below (range : Interval) (exponent : Int) : Decimal :=
  { digits :=
      range.middle * Nat.pow 10 (-exponent).toNat /
        (range.denominator * Nat.pow 10 exponent.toNat)
    exponent := exponent }

/-- The point of the grid `10^exponent` that reads back and is nearest to the
number. -/
def onGrid? (range : Interval) (tie : Tie) (exponent : Int) : Option Decimal :=
  let lower := range.below exponent
  let upper : Decimal := { digits := lower.digits + 1, exponent := exponent }
  match range.contains lower, range.contains upper with
  | true, true =>
    if range.distance lower < range.distance upper then some lower
    else if range.distance upper < range.distance lower then some upper
    else if tie = .even ∧ lower.digits % 2 = 0 then some lower
    else some upper
  | true, false => some lower
  | false, true => some upper
  | false, false => none

/-- The least exponent `e` with the number below `10^e`, found by counting
digits of the whole part or zeros after the point. -/
def magnitude (range : Interval) : Int :=
  let whole := range.middle / range.denominator
  if whole = 0 then
    match (List.range 400).find? fun zeros =>
        range.denominator ≤ range.middle * Nat.pow 10 (zeros + 1) with
    | some zeros => -(zeros : Int)
    | none => 0
  else (Digits.decimal whole).length

end Interval

/-- A decimal without zeros at the end of its digits. -/
def normalized (fuel : Nat) (decimal : Decimal) : Decimal :=
  match fuel with
  | 0 => decimal
  | fuel + 1 =>
    if decimal.digits % 10 = 0 ∧ decimal.digits ≠ 0 then
      normalized fuel { digits := decimal.digits / 10, exponent := decimal.exponent + 1 }
    else decimal

/-- The shortest decimal of a positive finite number.  Seventeen digits always
suffice, so the search over the first seventeen grids finds one. -/
def decimal (tie : Tie) (number : Binary64) : Decimal :=
  let range := interval number
  let top := range.magnitude
  let found := (List.range 17).findSome? fun (count : Nat) =>
    range.onGrid? tie (top - ((count : Int) + 1))
  normalized 20 (found.getD (range.below (top - 17)))

/-- Digits in front of a power of ten as positional text: at most one point,
with a zero before it where no digit stands there. -/
def positional (decimal : Decimal) : List Char :=
  let digits := Digits.decimal decimal.digits
  let point := (digits.length : Int) + decimal.exponent
  if 0 ≤ decimal.exponent then
    digits ++ List.replicate decimal.exponent.toNat '0'
  else if 0 < point then
    digits.take point.toNat ++ '.' :: digits.drop point.toNat
  else
    '0' :: '.' :: (List.replicate (-point).toNat '0' ++ digits)

/-- Digits with an exponent: one digit, the others after a point, then the
power of ten with its sign. -/
def scientific (decimal : Decimal) : List Char :=
  let digits := Digits.decimal decimal.digits
  let power := (digits.length : Int) + decimal.exponent - 1
  let fraction := if digits.length ≤ 1 then [] else '.' :: digits.drop 1
  digits.take 1 ++ fraction ++ 'e' ::
    (if power < 0 then Digits.signed power else '+' :: Digits.signed power)

def withSign (number : Binary64) (letters : List Char) : List Char :=
  if number.isNegative then '-' :: letters else letters

/-- The text of a finite number with all its digits and no exponent, and with
`.0` where it is whole. -/
def plain (number : Binary64) : List Char :=
  withSign number <|
    if number.isZero then ['0', '.', '0']
    else
      let letters := positional (decimal .upper number)
      if letters.contains '.' then letters else letters ++ ['.', '0']

/-- The text of a finite number in which very large and very small numbers
have an exponent: positional where the point falls among the first sixteen
digits or at most five zeros follow it, with `.0` where it is whole. -/
def compact (number : Binary64) : List Char :=
  withSign number <|
    if number.isZero then ['0', '.', '0']
    else
      let shortest := decimal .even number
      let point := ((Digits.decimal shortest.digits).length : Int) + shortest.exponent
      if -5 < point ∧ point ≤ 16 then
        let letters := positional shortest
        if letters.contains '.' then letters else letters ++ ['.', '0']
      else scientific shortest

end Shortest

end LogPipeline
