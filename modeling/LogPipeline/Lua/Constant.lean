import LogPipeline.Number.Arithmetic
import LogPipeline.Lua.Grammar

namespace LogPipeline

namespace Lua

/-!
# Values known before a script runs

A literal denotes a constant.  An operator between numbers is worked out before
the script runs as well, unless that would divide by zero or give a zero that
is no whole number or what is no number.  Whole numbers have sixty-four bits
and wrap around.
-/

/-- A value that is known before the script runs. -/
inductive Constant where
  | nil
  | truth (value : Bool)
  | integer (value : Int64)
  | real (value : Binary64)
  | text (bytes : List UInt8)
deriving DecidableEq

namespace Constant

/-! ## Numerals -/

/-- The number that a decimal numeral denotes: a whole number where it is a row
of digits and fits, else the nearest double. -/
def ofDecimal (letters : List Char) : Constant :=
  let nearest := (Binary64.readUnsigned? false letters).getD Binary64.notANumber
  match Binary64.wholeNumber? letters with
  | some number =>
    if number < 0x8000000000000000 then .integer (Int64.ofNat number) else .real nearest
  | none => .real nearest

/-- The number that a hexadecimal numeral denotes, given what follows its mark:
a row of digits is a whole number, which wraps around. -/
def ofHexadecimal (letters : List Char) : Constant :=
  match Digits.read? 16 letters with
  | some number => .integer (Int64.ofNat number)
  | none => .real ((Binary64.readHexadecimal? letters).getD Binary64.notANumber)

/-- The number that a numeral denotes. -/
def ofNumeral (letters : List Char) : Constant :=
  match letters with
  | '0' :: mark :: rest =>
    if mark = 'x' || mark = 'X' then ofHexadecimal rest else ofDecimal letters
  | _ => ofDecimal letters

/-! ## Numbers -/

def isNumber : Constant → Bool
  | .integer _ => true
  | .real _ => true
  | _ => false

def toReal? : Constant → Option Binary64
  | .integer value => some (Binary64.ofInt value.toInt)
  | .real value => some value
  | _ => none

def toInteger? : Constant → Option Int64
  | .integer value => some value
  | .real value => value.toInt64?
  | _ => none

/-- Whether a constant is a number other than zero. -/
def isDivisor (constant : Constant) : Bool :=
  constant.toReal?.any fun value => !value.isZero

/-- A double as the result of an operator, if it can be one. -/
def ofReal? (value : Binary64) : Option Constant :=
  if value.isNaN || value.isZero then none else some (.real value)

/-! ## Operators -/

/-- The result of an operator that keeps whole numbers whole. -/
def combine? (whole : Int64 → Int64 → Int64) (real : Binary64 → Binary64 → Binary64)
    (left right : Constant) : Option Constant :=
  match left, right with
  | .integer first, .integer second => some (.integer (whole first second))
  | _, _ => do ofReal? (real (← left.toReal?) (← right.toReal?))

/-- The result of an operator on doubles. -/
def combineReals? (real : Binary64 → Binary64 → Binary64) (left right : Constant) :
    Option Constant := do
  ofReal? (real (← left.toReal?) (← right.toReal?))

/-- The result of an operator on the bits of whole numbers. -/
def combineBits? (whole : Int64 → Int64 → Int64) (left right : Constant) : Option Constant := do
  return .integer (whole (← left.toInteger?) (← right.toInteger?))

/-- The bits of a whole number moved up by a number of places, or down by a
negative one; zeros move in. -/
def shift (value : Int64) (places : Int) : Int64 :=
  let size := value.toUInt64.toNat
  if 64 ≤ places.natAbs then 0
  else if 0 ≤ places then Int64.ofNat (size * Nat.pow 2 places.natAbs)
  else Int64.ofNat (size / Nat.pow 2 places.natAbs)

/-- The result of an operator on one constant, if it is worked out. -/
def unary? : UnaryOperator → Constant → Option Constant
  | .negate, .integer value => some (.integer (Int64.neg value))
  | .negate, .real value => ofReal? value.negate
  | .complement, operand => operand.toInteger?.map fun value => .integer (Int64.complement value)
  | _, _ => none

/-- The result of an operator between two constants, if it is worked out. -/
def binary? (operator : BinaryOperator) (left right : Constant) : Option Constant :=
  match operator with
  | .add => combine? Int64.add Binary64.add left right
  | .subtract => combine? Int64.sub Binary64.subtract left right
  | .multiply => combine? Int64.mul Binary64.multiply left right
  | .divide => if right.isDivisor then combineReals? Binary64.divide left right else none
  | .floorDivide =>
    if right.isDivisor then
      combine? (fun first second => Int64.ofInt (Int.fdiv first.toInt second.toInt))
        Binary64.floorDivide left right
    else none
  | .modulo =>
    if right.isDivisor then
      combine? (fun first second => Int64.ofInt (Int.fmod first.toInt second.toInt))
        Binary64.modulo left right
    else none
  | .power => combineReals? Binary64.raise left right
  | .bitAnd => combineBits? Int64.land left right
  | .bitOr => combineBits? Int64.lor left right
  | .bitXor => combineBits? Int64.xor left right
  | .shiftLeft => combineBits? (fun first second => shift first second.toInt) left right
  | .shiftRight => combineBits? (fun first second => shift first (-second.toInt)) left right
  | _ => none

end Constant

end Lua

end LogPipeline
