import LogPipeline.Lua.Constant

namespace LogPipeline

namespace Lua

/-!
# Names, labels and jumps

A block that obeys the grammar is refused for what it does with names.  No
variable that is declared as constant or as closed is assigned to.  A function
refers to further arguments only if it takes them.  A jump reaches a label of a
block around it, and never goes forward into the reach of a variable.  A label
stands once among the labels that can be seen from it.  A function holds a
bounded number of variables and refers to a bounded number of those of the
functions around it.

A function keeps its variables in a row of slots, and the values at hand in the
slots after them.  Its constants are numbered in the order of their first use.

A scope is what is known at a place in the script.  Each phrase turns the scope
before it into the scope after it, or is refused.
-/

/-- A variable that can be seen from a place. -/
structure Local where
  name : List Char
  /-- How many functions stand around its declaration. -/
  owner : Nat
  /-- The slot that it fills. -/
  slot : Nat := 0
  readOnly : Bool := false
  /-- Its value, where that is known before the script runs.  Then it fills no slot. -/
  value : Option Constant := none
deriving DecidableEq

/-- Where a jump goes. -/
inductive Destination where
  | label (name : List Char)
  | loopEnd
deriving DecidableEq

/-- A jump that has not reached its destination. -/
structure Jump where
  destination : Destination
  /-- How many variables of the function are active where the jump leaves. -/
  active : Nat
deriving DecidableEq

/-- What is known at a place in a script. -/
structure Scope where
  /-- The variables that can be seen, the latest first. -/
  locals : List Local
  /-- How many functions stand around the place. -/
  depth : Nat
  /-- Whether the function takes further arguments. -/
  more : Bool
  /-- How many variables of the function are active. -/
  active : Nat := 0
  /-- How many slots these fill. -/
  slots : Nat := 0
  /-- How many slots are filled: those of the variables and of the values at hand. -/
  filled : Nat := 0
  /-- How many variables were active where the block began. -/
  entry : Nat := 0
  /-- Whether the variables of the block are seen after its last statement. -/
  outlives : Bool := false
  /-- The labels of the function that can be seen. -/
  labels : List (List Char) := []
  /-- The jumps of the block that have not reached their destinations. -/
  jumps : List Jump := []
  /-- The variables of functions around this one that it refers to. -/
  captured : List Local := []
  /-- The constants of the function by their numbers. -/
  constants : Array Constant := #[]
  /-- The numbers that the constants of the script took last, in any function. -/
  numbers : List (Constant × Nat) := []

/-- A judgement of a phrase, which turns the scope before it into the scope
after it or refuses the phrase. -/
abbrev Judgement : Type → Type :=
  StateT Scope Option

namespace Scope

def variableLimit : Nat :=
  200

/-- How many slots a function can fill. -/
def slotLimit : Nat :=
  254

/-- How many variables of functions around it a function can refer to. -/
def captureLimit : Nat :=
  255

/-- The name of the variable that holds the variables which no one declares. -/
def environmentName : List Char :=
  "_ENV".toList

/-- The scope of a script before its first statement. -/
def start : Scope where
  locals := [{ name := environmentName, owner := 0 }]
  depth := 1
  more := true

def find? (scope : Scope) (name : List Char) : Option Local :=
  scope.locals.find? fun candidate => candidate.name = name

/-- Notes that a variable is referred to, if it belongs to a function around this one. -/
def capture (scope : Scope) (used : Local) : Scope :=
  if used.owner < scope.depth ∧ used ∉ scope.captured then
    { scope with captured := used :: scope.captured }
  else scope

def canAssign (scope : Scope) (name : List Char) : Bool :=
  (scope.find? name).all fun found => !found.readOnly

/-- Makes a number of variables active that fill a number of slots. -/
def activate (scope : Scope) (count slots : Nat) : Option Scope :=
  if scope.active + count ≤ variableLimit then
    some { scope with active := scope.active + count, slots := scope.slots + slots }
  else none

/-- Makes variables active that no name stands for. -/
def hide (scope : Scope) (count : Nat) : Option Scope :=
  scope.activate count count

def declare (scope : Scope) (name : List Char) (readOnly : Bool) (value : Option Constant) :
    Option Scope :=
  let declared : Local :=
    { name := name, owner := scope.depth, slot := scope.slots,
      readOnly := readOnly, value := value }
  ({ scope with locals := declared :: scope.locals }).activate 1 (if value.isSome then 0 else 1)

def declareAll (scope : Scope) (names : List (List Char)) : Option Scope :=
  names.foldlM (fun inner name => inner.declare name false none) scope

/-- Declares the variables of a local statement, given the value of the last
one where it is known. -/
def declareLocals (scope : Scope) (value : Option Constant) : List Declared → Option Scope
  | [] => some scope
  | [last] => scope.declare last.name last.restriction.isSome value
  | first :: rest => do
    let next ← scope.declare first.name first.restriction.isSome none
    next.declareLocals value rest

def enter (scope : Scope) (outlives : Bool) : Scope :=
  { scope with entry := scope.active, outlives := outlives, jumps := [] }

/-- The scope after a block, given the scope at its end.  Its jumps go on from
where the block began. -/
def leave (scope inner : Scope) : Scope :=
  { scope with
    filled := scope.slots
    jumps := scope.jumps ++ inner.jumps.map fun jump => { jump with active := scope.active }
    captured := inner.captured
    constants := inner.constants
    numbers := inner.numbers }

/-- The scope after the body of a loop: jumps to its end are there. -/
def leaveLoop (scope inner : Scope) : Scope :=
  scope.leave { inner with jumps := inner.jumps.filter fun jump => jump.destination ≠ .loopEnd }

def jump (scope : Scope) (destination : Destination) : Scope :=
  { scope with jumps := scope.jumps ++ [{ destination := destination, active := scope.active }] }

/-- A jump to a label.  One that can be seen is reached at once. -/
def jumpTo (scope : Scope) (name : List Char) : Scope :=
  if name ∈ scope.labels then scope else scope.jump (.label name)

/-- A label, given whether nothing but labels and empty statements follow it in
its block.  Then the variables of the block have ended there, unless they are
seen after it.  The jumps that wait for the label reach it. -/
def label (scope : Scope) (name : List Char) (ends : Bool) : Option Scope :=
  let active := if ends && !scope.outlives then scope.entry else scope.active
  let (arriving, waiting) := scope.jumps.partition fun jump => jump.destination = .label name
  if name ∉ scope.labels ∧ arriving.all (fun jump => active ≤ jump.active) then
    some { scope with labels := name :: scope.labels, jumps := waiting }
  else none

/-- The scope at the start of a function. -/
def enterFunction (scope : Scope) (more : Bool) : Scope where
  locals := scope.locals
  depth := scope.depth + 1
  more := more
  numbers := scope.numbers

/-- The scope after a function, given the scope at its end.  Every jump of the
function has arrived. -/
def leaveFunction (scope inner : Scope) : Option Scope :=
  if inner.jumps.isEmpty ∧ inner.captured.length ≤ captureLimit then
    some (inner.captured.foldr (fun used outer => outer.capture used)
      { scope with numbers := inner.numbers })
  else none

end Scope

end Lua

end LogPipeline
