namespace LogPipeline

/-!
# Double-precision numbers

A double is held as its sixty-four bits.  Everything the configuration text
needs from it, its class, its sign and its exact value as a fraction of two
natural numbers, is read off the bits, so that no rounding happens between a
number and its text.
-/

/-- A double-precision number by its bits: a sign bit, eleven exponent bits and
fifty-two fraction bits. -/
structure Binary64 where
  bits : UInt64
deriving DecidableEq

namespace Binary64

/-- How many patterns the fraction bits have, `2^52`. -/
def fractionCount : Nat := 0x10000000000000

/-- The weight of the sign bit, `2^63`. -/
def signWeight : Nat := 0x8000000000000000

def exponentField (number : Binary64) : Nat :=
  number.bits.toNat / fractionCount % 2048

def fractionField (number : Binary64) : Nat :=
  number.bits.toNat % fractionCount

def isNegative (number : Binary64) : Bool :=
  number.bits.toNat / signWeight = 1

def isFinite (number : Binary64) : Bool :=
  number.exponentField < 2047

/-- Whether the bits stand for no number at all. -/
def isNaN (number : Binary64) : Bool :=
  number.exponentField = 2047 && number.fractionField ≠ 0

def isZero (number : Binary64) : Bool :=
  number.exponentField = 0 && number.fractionField = 0

/-- The whole number whose multiple by a power of two is the magnitude. -/
def significand (number : Binary64) : Nat :=
  if number.exponentField = 0 then number.fractionField
  else number.fractionField + fractionCount

/-- The power of two that multiplies the significand. -/
def power (number : Binary64) : Int :=
  if number.exponentField = 0 then -1074
  else (number.exponentField : Int) - 1075

/-- The numerator of the magnitude of a finite number. -/
def numerator (number : Binary64) : Nat :=
  number.significand * Nat.pow 2 number.power.toNat

/-- The denominator of the magnitude of a finite number, a power of two. -/
def denominator (number : Binary64) : Nat :=
  Nat.pow 2 (-number.power).toNat

theorem denominator_pos (number : Binary64) : 0 < number.denominator :=
  Nat.pow_pos (by omega)

/-- Equality as numbers: the two zeros are equal, and what is no number equals
nothing. -/
def equal (left right : Binary64) : Bool :=
  !left.isNaN && !right.isNaN &&
    (left.bits = right.bits || (left.isZero && right.isZero))

/-- Whether the number is whole and lies strictly between `-2^63` and `2^63`. -/
def isIntegral (number : Binary64) : Bool :=
  number.isFinite &&
    number.numerator % number.denominator = 0 &&
    number.numerator / number.denominator < 0x8000000000000000

/-- The number that bits with a given sign and an unsigned remainder denote. -/
def ofMagnitudeBits (negative : Bool) (magnitude : Nat) : Binary64 where
  bits := UInt64.ofNat (magnitude + if negative then signWeight else 0)

def infinity (negative : Bool) : Binary64 :=
  ofMagnitudeBits negative (2047 * fractionCount)

/-- The one pattern that stands for no number when a text denotes none. -/
def notANumber : Binary64 :=
  ofMagnitudeBits false (2047 * fractionCount + fractionCount / 2)

end Binary64

end LogPipeline
