import LogPipeline.Number.Reading

namespace LogPipeline

namespace Binary64

/-!
# Arithmetic of doubles

Sums, products, quotients and powers are those of the machine.  A quotient can
be rounded down to a whole number, and the modulo that belongs to it has the
sign of the divisor.
-/

def toFloat (number : Binary64) : Float :=
  Float.ofBits number.bits

def ofFloat (number : Float) : Binary64 where
  bits := number.toBits

def add (left right : Binary64) : Binary64 :=
  ofFloat (Float.add left.toFloat right.toFloat)

def subtract (left right : Binary64) : Binary64 :=
  ofFloat (Float.sub left.toFloat right.toFloat)

def multiply (left right : Binary64) : Binary64 :=
  ofFloat (Float.mul left.toFloat right.toFloat)

def divide (left right : Binary64) : Binary64 :=
  ofFloat (Float.div left.toFloat right.toFloat)

def floorDivide (left right : Binary64) : Binary64 :=
  ofFloat (Float.floor (Float.div left.toFloat right.toFloat))

/-- The power; a square is a product. -/
def raise (base exponent : Binary64) : Binary64 :=
  if exponent = ofInt 2 then base.multiply base
  else ofFloat (Float.pow base.toFloat exponent.toFloat)

def negate (number : Binary64) : Binary64 :=
  ofFloat (Float.neg number.toFloat)

/-- What is left of a number after division by another that is not zero, with
the sign of the divisor. -/
def modulo (number divisor : Binary64) : Binary64 :=
  let sameSign := number.isNegative = divisor.isNegative
  if !number.isFinite || divisor.isNaN then notANumber
  else if !divisor.isFinite then
    if number.isZero || sameSign then number else infinity divisor.isNegative
  else
    let unit := number.denominator * divisor.denominator
    let whole := divisor.numerator * number.denominator
    let rest := number.numerator * divisor.denominator % whole
    if rest = 0 || sameSign then ofFraction number.isNegative rest unit
    else ofFraction divisor.isNegative (whole - rest) unit

/-- The whole number of sixty-four bits that a double is, if it is one. -/
def toInt64? (number : Binary64) : Option Int64 :=
  if number.isFinite && number.numerator % number.denominator = 0 then
    let size := number.numerator / number.denominator
    if number.isNegative then
      if size ≤ 0x8000000000000000 then some (Int64.ofInt (-(size : Int))) else none
    else if size < 0x8000000000000000 then some (Int64.ofNat size)
    else none
  else none

end Binary64

end LogPipeline
