import LogPipeline.Lua.Operand

namespace LogPipeline

namespace Lua

/-!
# Operators at work

An operator between two operands gets hold of the left one before the right one
is judged.  A number can wait for the right operand, since the result may be
known before the script runs.  Some operators take a small number or a constant
of the function as it is, and every other operand from a slot.
-/

open Judgement

namespace Operand

/-- A value that is made in the slot chosen for it. -/
def result : Operand where
  source := .made false

/-- Whether a whole number is small enough to be part of an operation. -/
def isSmall (value : Int64) : Bool :=
  -127 ≤ value.toInt && value.toInt ≤ 128

def smallInteger? (operand : Operand) : Option Int64 :=
  match operand.number? with
  | some (.integer value) => if isSmall value then some value else none
  | _ => none

/-- Whether an operand is a small whole number, be it written as a double. -/
def isSmallNumber (operand : Operand) : Bool :=
  (operand.number?.bind Constant.toInteger?).any isSmall

/-- Whether an operand is a small whole number with a small opposite. -/
def isSmallEitherWay (operand : Operand) : Bool :=
  operand.smallInteger?.any fun value => isSmall (Int64.neg value)

def isInteger (operand : Operand) : Bool :=
  match operand.source with
  | .constant (.integer _) => true
  | _ => false

/-- Puts a value that decides about a jump into a slot for that. -/
def test (operand : Operand) : Judgement Unit := do
  match operand.slot? with
  | some slot => Judgement.release slot
  | none =>
    let slot ← next
    operand.make
    Judgement.release slot

/-- Whether a value that is known counts as true. -/
def truth? (operand : Operand) : Option Bool :=
  match operand.source with
  | .constant .nil => some false
  | .constant (.truth value) => some value
  | .constant _ => some true
  | .numbered _ => some true
  | _ => none

/-- Goes on where an operand counts as a given truth value, and else jumps. -/
def goOnIf (operand : Operand) (wanted : Bool) : Judgement Operand := do
  let fetched ← operand.fetch
  let jumps := fetched.truth? ≠ some wanted
  if jumps && fetched.source ≠ .comparison && fetched.source ≠ .made true then fetched.test
  return {
    source := fetched.source
    leavesTrue := !wanted && (fetched.leavesTrue || jumps)
    leavesFalse := wanted && (fetched.leavesFalse || jumps) }

/-- The negation of a value that was fetched. -/
def negated (operand : Operand) : Judgement Operand := do
  let source ← match operand.truth?, operand.source with
    | some value, _ => pure (Source.constant (.truth !value))
    | none, .comparison => pure .comparison
    | none, _ => do
      operand.test
      pure (.made true)
  return {
    source := source
    leavesTrue := operand.leavesFalse
    leavesFalse := operand.leavesTrue }

/-- Both operands from slots, the right one fetched first. -/
def fromSlots (left right : Operand) : Judgement Operand := do
  let rightSlot ← right.place
  let leftSlot ← left.place
  Judgement.release rightSlot
  Judgement.release leftSlot
  return result

/-- One operand from a slot; the other one is part of the operation. -/
def withConstant (operand : Operand) : Judgement Operand := do
  operand.consume
  return result

/-- The left operand from a slot, and the right one as a constant of the
function where a condition holds and it can be one.  `swapped` tells that the
operands have changed their sides. -/
def withNumbered (left right : Operand) (condition swapped : Bool) : Judgement Operand := do
  let numbered ← if condition then right.numbered? else pure none
  match numbered, swapped with
  | some _, _ => left.withConstant
  | none, false => fromSlots left right
  | none, true => fromSlots right left

/-- An operator of arithmetic without a form for small numbers. -/
def arithmetic (left right : Operand) (swapped : Bool) : Judgement Operand :=
  left.withNumbered right right.number?.isSome swapped

/-- A sum or a product: a number on the left changes sides. -/
def commutative (sum : Bool) (left right : Operand) : Judgement Operand :=
  let swapped := left.number?.isSome
  let (first, second) := if swapped then (right, left) else (left, right)
  if sum && second.smallInteger?.isSome then first.withConstant
  else first.arithmetic second swapped

/-- An operator on bits: a whole number on the left changes sides. -/
def bitwise (left right : Operand) : Judgement Operand :=
  let swapped := left.isInteger
  let (first, second) := if swapped then (right, left) else (left, right)
  first.withNumbered second second.isInteger swapped

/-- An equation. -/
def equated (left right : Operand) : Judgement Operand := do
  let (first, second) := if left.slot?.isSome then (left, right) else (right, left)
  let slot ← first.place
  let other ← if second.isSmallNumber then pure second else second.compact
  Judgement.release slot
  other.release
  return { source := .comparison }

/-- A comparison by order. -/
def ordered (left right : Operand) : Judgement Operand := do
  if right.isSmallNumber then left.consume
  else if left.isSmallNumber then right.consume
  else
    let leftSlot ← left.place
    let rightSlot ← right.place
    Judgement.release leftSlot
    Judgement.release rightSlot
  return { source := .comparison }

end Operand

/-- The result of an operator before one operand. -/
def UnaryOperator.applied (operator : UnaryOperator) (operand : Operand) :
    Judgement Operand := do
  let fetched ← operand.fetch
  match operator, fetched.number?.bind (Constant.unary? operator) with
  | _, some value => return .ofConstant value
  | .not, none => fetched.negated
  | _, none => fetched.withConstant

/-- Gets hold of the left operand before the right one is judged. -/
def BinaryOperator.held (operator : BinaryOperator) (left : Operand) : Judgement Operand := do
  let fetched ← left.fetch
  match operator with
  | .and => fetched.goOnIf true
  | .or => fetched.goOnIf false
  | .concatenate => return .ofSlot (← fetched.push)
  | .equal | .unequal => if fetched.number?.isSome then return fetched else fetched.compact
  | .less | .lessOrEqual | .greater | .greaterOrEqual =>
    if fetched.isSmallNumber then return fetched else return .ofSlot (← fetched.place)
  | _ => if fetched.number?.isSome then return fetched else return .ofSlot (← fetched.place)

/-- The result that an operator has for two numbers before the script runs. -/
def BinaryOperator.known? (operator : BinaryOperator) (left right : Operand) :
    Option Constant := do
  Constant.binary? operator (← left.number?) (← right.number?)

/-- The result of an operator whose left operand has been got hold of. -/
def BinaryOperator.applied (operator : BinaryOperator) (left right : Operand) :
    Judgement Operand := do
  let fetched ← right.fetch
  match operator, operator.known? left fetched with
  | _, some value => return .ofConstant value
  | .and, none => return { fetched with leavesFalse := fetched.leavesFalse || left.leavesFalse }
  | .or, none => return { fetched with leavesTrue := fetched.leavesTrue || left.leavesTrue }
  | .concatenate, none => do
    Judgement.release (← fetched.push)
    return left
  | .equal, none | .unequal, none => left.equated fetched
  | .less, none | .lessOrEqual, none => left.ordered fetched
  | .greater, none | .greaterOrEqual, none => fetched.ordered left
  | .add, none => left.commutative true fetched
  | .multiply, none => left.commutative false fetched
  | .subtract, none =>
    if fetched.isSmallEitherWay then left.withConstant else left.arithmetic fetched false
  | .bitAnd, none | .bitOr, none | .bitXor, none => left.bitwise fetched
  | .shiftLeft, none =>
    if left.smallInteger?.isSome then fetched.withConstant
    else if fetched.isSmallEitherWay then left.withConstant
    else left.fromSlots fetched
  | .shiftRight, none =>
    if fetched.smallInteger?.isSome then left.withConstant else left.fromSlots fetched
  | .divide, none | .floorDivide, none | .modulo, none | .power, none =>
    left.arithmetic fetched false

end Lua

end LogPipeline
