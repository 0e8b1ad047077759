import LogPipeline.Number.Digits
import LogPipeline.Number.Rounding
import LogPipeline.Number.Binary64

namespace LogPipeline

namespace Binary64

/-!
# Doubles from decimal text

A decimal is read as the double nearest to its exact value, the one with an
even significand where two are equally near.  A decimal too large for every
finite double reads as an infinity.
-/

/-- The power of two that multiplies the significand of the double nearest to
`numerator / denominator`, both positive: the significand has fifty-three
binary digits, unless the power would fall below the least one. -/
def nearestPower (numerator denominator : Nat) : Int :=
  let estimate := (Nat.log2 numerator : Int) - (Nat.log2 denominator : Int) - 53
  let whole := numerator * Nat.pow 2 (-estimate).toNat / (denominator * Nat.pow 2 estimate.toNat)
  max (if whole < 2 * fractionCount then estimate else estimate + 1) (-1074)

/-- The double nearest to a fraction with a positive denominator. -/
def ofFraction (negative : Bool) (numerator denominator : Nat) : Binary64 :=
  if numerator = 0 then ofMagnitudeBits negative 0
  else
    let power := nearestPower numerator denominator
    let rounded := Rounding.nearestEven (numerator * Nat.pow 2 (-power).toNat)
      (denominator * Nat.pow 2 power.toNat)
    let magnitude := (power + 1074).toNat * fractionCount + rounded
    if magnitude < 2047 * fractionCount then ofMagnitudeBits negative magnitude
    else infinity negative

/-- The double nearest to `digits · 10^exponent`.  A power of ten far outside
the range of doubles decides the result without being computed. -/
def ofDecimal (negative : Bool) (digits : Nat) (exponent : Int) : Binary64 :=
  let point := ((Digits.decimal digits).length : Int) + exponent
  if digits = 0 ∨ point < -400 then ofMagnitudeBits negative 0
  else if 400 < point then infinity negative
  else ofFraction negative (digits * Nat.pow 10 exponent.toNat) (Nat.pow 10 (-exponent).toNat)

/-- The double nearest to `digits · 2^power`.  A power far outside the range of
doubles decides the result without being computed. -/
def ofBinary (digits : Nat) (power : Int) : Binary64 :=
  let top := (Nat.log2 digits : Int) + power
  if digits = 0 ∨ top < -1200 then ofMagnitudeBits false 0
  else if 1200 < top then infinity false
  else ofFraction false (digits * Nat.pow 2 power.toNat) (Nat.pow 2 (-power).toNat)

/-- The double nearest to a whole number. -/
def ofInt (number : Int) : Binary64 :=
  ofFraction (number < 0) number.natAbs 1

/-- The number that a nonempty row of decimal digits denotes. -/
def wholeNumber? (letters : List Char) : Option Nat :=
  if letters.all Digits.isDecimal then Digits.read? 10 letters else none

/-- The exponent part of a number's text: a mark, an optional sign and decimal
digits up to the end, or nothing at all. -/
def exponentPart? (isMark : Char → Bool) : List Char → Option Int
  | [] => some 0
  | mark :: rest =>
    if isMark mark then
      match rest with
      | '+' :: digits => (wholeNumber? digits).map Int.ofNat
      | '-' :: digits => (wholeNumber? digits).map fun size => -(size : Int)
      | digits => (wholeNumber? digits).map Int.ofNat
    else none

/-- The parts of a number's text. -/
structure Parts where
  whole : List Char
  fraction : List Char
  exponent : Int

/-- The parts of an unsigned text: digits with at most one point and at least
one digit, and an optional exponent part. -/
def parts? (isDigit isMark : Char → Bool) (letters : List Char) : Option Parts :=
  let whole := letters.takeWhile isDigit
  let afterWhole := letters.dropWhile isDigit
  let fraction := match afterWhole with
    | '.' :: rest => rest.takeWhile isDigit
    | _ => []
  let afterFraction := match afterWhole with
    | '.' :: rest => rest.dropWhile isDigit
    | rest => rest
  if whole.isEmpty && fraction.isEmpty then none
  else (exponentPart? isMark afterFraction).map fun exponent =>
    { whole := whole, fraction := fraction, exponent := exponent }

/-- The value of a row of digits of a base, zero for an empty one. -/
def digitsValue (base : Nat) (digits : List Char) : Nat :=
  (Digits.read? base digits).getD 0

/-- An unsigned decimal text, whose exponent counts powers of ten. -/
def readUnsigned? (negative : Bool) (letters : List Char) : Option Binary64 :=
  (parts? Digits.isDecimal (fun mark => mark = 'e' || mark = 'E') letters).map fun parts =>
    ofDecimal negative (digitsValue 10 (parts.whole ++ parts.fraction))
      (parts.exponent - parts.fraction.length)

/-- An unsigned hexadecimal text, whose exponent counts powers of two. -/
def readHexadecimal? (letters : List Char) : Option Binary64 :=
  (parts? Digits.isHexadecimal (fun mark => mark = 'p' || mark = 'P') letters).map fun parts =>
    ofBinary (digitsValue 16 (parts.whole ++ parts.fraction))
      (parts.exponent - 4 * parts.fraction.length)

/-- A decimal text with an optional sign. -/
def read? : List Char → Option Binary64
  | '+' :: rest => readUnsigned? false rest
  | '-' :: rest => readUnsigned? true rest
  | letters => readUnsigned? false letters

end Binary64

end LogPipeline
