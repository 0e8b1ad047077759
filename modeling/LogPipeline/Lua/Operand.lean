import LogPipeline.Lua.Literal
import LogPipeline.Lua.Scope

namespace LogPipeline

namespace Lua

/-!
# Operands

While a phrase is judged, the value of an expression may be a constant, stand
in a slot, or be still to be fetched.  It goes into a slot as late as possible:
a constant or a variable of the function often needs none.  A slot for a value
at hand is always the first one that is not filled, and is free again once the
value has been used.
-/

/-- Where a value comes from. -/
inductive Source where
  | constant (value : Constant)
  /-- A variable whose value is known before the script runs. -/
  | declared (value : Constant)
  /-- A constant of the function, by its number. -/
  | numbered (number : Nat)
  /-- A variable of the function, by its slot. -/
  | own (slot : Nat)
  /-- A variable of a function around this one. -/
  | captured (used : Local)
  /-- A field of the table that such a variable holds, under a short name. -/
  | capturedField (table : Local)
  /-- A field of the table in a slot, under the key in another slot or under a
  key that needs none. -/
  | field (table : Nat) (key : Option Nat)
  /-- A slot that holds the value. -/
  | slot (index : Nat)
  /-- A value that is made directly in the slot chosen for it; a negation if so marked. -/
  | made (negation : Bool)
  /-- A comparison, which jumps instead of making a value. -/
  | comparison
  /-- A call, by the slot of its first result. -/
  | call (slot : Nat)
  /-- The further arguments of the function. -/
  | more
deriving DecidableEq

/-- A value that an operator or a statement takes. -/
structure Operand where
  source : Source
  /-- Whether a jump leaves the expression with a value that counts as true. -/
  leavesTrue : Bool := false
  /-- Whether a jump leaves the expression with a value that counts as false. -/
  leavesFalse : Bool := false
deriving DecidableEq

namespace Judgement

def require (condition : Bool) : Judgement Unit :=
  if condition then pure () else failure

/-- Goes on only if a number of further slots is there. -/
def room (count : Nat) : Judgement Unit := do
  require ((← get).filled + count ≤ Scope.slotLimit)

def fill (count : Nat) : Judgement Unit := do
  room count
  modify fun scope => { scope with filled := scope.filled + count }

def next : Judgement Nat := do
  let slot := (← get).filled
  fill 1
  return slot

def fillTo (filled : Nat) : Judgement Unit :=
  modify fun scope => { scope with filled := filled }

/-- Frees a slot, unless a variable fills it. -/
def release (slot : Nat) : Judgement Unit :=
  modify fun scope =>
    if scope.slots ≤ slot then { scope with filled := scope.filled - 1 } else scope

/-- The number of a constant in the function.  It has one already if it took
its last number there. -/
def number (constant : Constant) : Judgement Nat := do
  let scope ← get
  let fresh := scope.constants.size
  let known := (scope.numbers.lookup constant).filter fun number =>
    scope.constants[number]? = some constant
  match known with
  | some number => return number
  | none =>
    set { scope with
      constants := scope.constants.push constant
      numbers := (constant, fresh) :: scope.numbers }
    return fresh

/-- Whether a whole number can be made without being a constant of the function. -/
def isDirect (value : Int64) : Bool :=
  -65535 ≤ value.toInt && value.toInt ≤ 65536

/-- Notes the constant that is needed to make a value. -/
def load (constant : Constant) : Judgement Unit := do
  let direct := match constant with
    | .text _ => false
    | .integer value => isDirect value
    | .real value => value.toInt64?.any isDirect
    | _ => true
  unless direct do discard (number constant)

end Judgement

namespace Operand

open Judgement

def ofConstant (value : Constant) : Operand where
  source := .constant value

def ofSlot (slot : Nat) : Operand where
  source := .slot slot

def ofLetters (letters : List Char) : Operand :=
  ofConstant (.text (letters.flatMap Literal.letterBytes))

def branches (operand : Operand) : Bool :=
  operand.leavesTrue || operand.leavesFalse

def slot? (operand : Operand) : Option Nat :=
  match operand.source with
  | .slot index => some index
  | _ => none

/-- Whether an operand can stand for any number of values. -/
def isOpen (operand : Operand) : Bool :=
  match operand.source with
  | .call _ => true
  | .more => true
  | _ => false

def release (operand : Operand) : Judgement Unit := do
  if let some slot := operand.slot? then Judgement.release slot

/-- A call or the further arguments as one value. -/
def single (operand : Operand) : Operand :=
  match operand.source with
  | .call slot => { operand with source := .slot slot }
  | .more => { operand with source := .made false }
  | _ => operand

/-- Fetches the value of a variable or of a field. -/
def fetch (operand : Operand) : Judgement Operand := do
  match operand.source with
  | .declared value => return { operand with source := .constant value }
  | .own slot => return { operand with source := .slot slot }
  | .captured _ => return { operand with source := .made false }
  | .capturedField _ => return { operand with source := .made false }
  | .field table key =>
    Judgement.release table
    if let some slot := key then Judgement.release slot
    return { operand with source := .made false }
  | _ => return operand.single

/-- Makes a value in a slot that is there for it. -/
def make (operand : Operand) : Judgement Unit := do
  if let .constant value := (← operand.fetch).source then load value

/-- Puts a value into the next slot. -/
def push (operand : Operand) : Judgement Nat := do
  let fetched ← operand.fetch
  fetched.release
  let slot ← next
  fetched.make
  return slot

/-- Puts a value into some slot, unless it stands in one.  The slot of a
variable does not do where the expression can be left by a jump. -/
def place (operand : Operand) : Judgement Nat := do
  let fetched ← operand.fetch
  match fetched.slot? with
  | some slot =>
    if fetched.branches && slot < (← get).slots then fetched.push else return slot
  | none => fetched.push

/-- Puts a value into some slot, where it is used at once. -/
def consume (operand : Operand) : Judgement Unit := do
  let slot ← operand.place
  Judgement.release slot

/-- The number that an operand is known to be. -/
def number? (operand : Operand) : Option Constant :=
  match operand.source with
  | .constant value => if operand.branches || !value.isNumber then none else some value
  | _ => none

/-- The value that an operand is known to have. -/
def constant? (operand : Operand) : Option Constant :=
  if operand.branches then none
  else
    match operand.source with
    | .constant value => some value
    | .declared value => some value
    | _ => none

/-- The greatest number of a constant that an operator can take without a slot. -/
def lastNumber : Nat :=
  255

/-- The number of a constant that needs no slot, if the operand is one. -/
def numbered? (operand : Operand) : Judgement (Option Nat) := do
  let number ← match operand.branches, operand.source with
    | false, .constant value => some <$> Judgement.number value
    | false, .numbered number => pure (some number)
    | _, _ => pure none
  return number.filter (· ≤ lastNumber)

/-- An operand as the number of a constant, or else in some slot. -/
def compact (operand : Operand) : Judgement Operand := do
  match ← operand.numbered? with
  | some number => return { source := .numbered number }
  | none => return ofSlot (← operand.place)

/-- An operand that is a constant or stands in a slot. -/
def evaluate (operand : Operand) : Judgement Operand := do
  if operand.branches || operand.source = .comparison then return ofSlot (← operand.place)
  else operand.fetch

/-! ## Variables and fields -/

/-- A variable as an operand, noted if it belongs to a function around this one. -/
def ofLocal (used : Local) : Judgement Operand := do
  match used.value with
  | some value => return { source := .declared value }
  | none =>
    let scope ← get
    if used.owner = scope.depth then return { source := .own used.slot }
    else
      set (scope.capture used)
      return { source := .captured used }

/-- A table from which a field is taken: in some slot, unless it is a variable
of a function around this one. -/
def asTable (operand : Operand) : Judgement Operand := do
  match operand.source, operand.branches with
  | .captured _, false => return operand
  | _, _ => return ofSlot (← operand.place)

/-- The longest text that serves as a short name. -/
def nameLimit : Nat :=
  40

/-- Whether a key is a short name, once it is a constant of the function. -/
def isShortName (key : Operand) : Judgement Bool := do
  match key.source with
  | .constant (.text bytes) =>
    let number ← Judgement.number (.text bytes)
    return !key.branches && number ≤ lastNumber && bytes.length ≤ nameLimit
  | _ => return false

/-- Whether a key is a small whole number. -/
def isSmallIndex (key : Operand) : Bool :=
  match key.number? with
  | some (.integer value) => 0 ≤ value.toInt && value.toInt ≤ 255
  | _ => false

/-- The field of a table under a key. -/
def field (table key : Operand) : Judgement Operand := do
  let short ← key.isShortName
  match table.source, short with
  | .captured used, true => return { source := .capturedField used }
  | _, _ =>
    let slot ← table.place
    if short || key.isSmallIndex then return { source := .field slot none }
    else return { source := .field slot (some (← key.place)) }

/-- The field of a table under a name. -/
def named (table : Operand) (name : List Char) : Judgement Operand := do
  (← table.asTable).field (ofLetters name)

/-- What a name stands for: a variable, or else a field of the environment. -/
def ofName (name : List Char) : Judgement Operand := do
  let scope ← get
  match scope.find? name, scope.find? Scope.environmentName with
  | some used, _ => ofLocal used
  | none, some environment => (← ofLocal environment).named name
  | none, none => failure

/-- Assigns a value to a variable or a field. -/
def assign (target value : Operand) : Judgement Unit := do
  match target.source with
  | .own _ =>
    value.release
    value.make
  | .captured _ => value.consume
  | _ => (← value.compact).release

end Operand

end Lua

end LogPipeline
