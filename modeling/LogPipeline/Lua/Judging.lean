import LogPipeline.Lua.Operation

namespace LogPipeline

namespace Lua

/-!
# Judging phrases

The phrases of a script are judged from left to right.  Each expression is
judged to an operand.  A statement begins and ends with no values at hand.
-/

open Judgement

/-! ## Rows of values and functions -/

def Expressions.count : Expressions → Nat
  | .last _ => 1
  | .next _ rest => rest.count + 1

def Targets.count : Targets → Nat
  | .last _ => 1
  | .next _ rest => rest.count + 1

/-- Puts the last value of a row into a slot, unless it stands for any number of
values. -/
def Operand.pushLast (operand : Operand) : Judgement Unit := do
  match operand.source with
  | .call _ => pure ()
  | .more => fill 1
  | _ => discard operand.push

/-- Fits a row of values to a number of variables, given the last one if there
is one.  Values that are missing fill slots as well; ones that are too many are
dropped. -/
def Judgement.fit (wanted given : Nat) (last : Option Operand) : Judgement Unit := do
  if let some operand := last then operand.pushLast
  if given < wanted then fill (wanted - given)
  else modify fun scope => { scope with filled := scope.filled - (given - wanted) }

/-- Whether a block begins with the end of a loop. -/
def Block.startsWithExit : Block → Bool
  | .next .exit _ => true
  | _ => false

/-- Whether a block holds nothing but labels and empty statements. -/
def Block.isIdle : Block → Bool
  | .finished => true
  | .next .empty rest => rest.isIdle
  | .next (.label _) rest => rest.isIdle
  | _ => false

def closesOnce (row : List Declared) : Bool :=
  row.countP (fun declared => declared.restriction = some .closed) ≤ 1

/-- The value of the last of some variables, where it is known before the
script runs: a constant variable with a value of its own. -/
def knownValue? (row : List Declared) (values : Nat) (last : Operand) : Option Constant :=
  if values = row.length ∧ (row.getLast?.bind Declared.restriction) = some .constant then
    last.constant?
  else none

/-- Judges a block of its own, given whether its variables are seen after its
last statement. -/
def Judgement.block (outlives : Bool) (body : Judgement Unit) : Judgement Unit := do
  let outer ← get
  set (outer.enter outlives)
  body
  set (outer.leave (← get))

/-- Judges the body of a loop, with the variables that the loop declares. -/
def Judgement.loopBody (hidden : Nat) (names : List (List Char)) (outlives : Bool)
    (body : Judgement Unit) : Judgement Unit := do
  let outer ← get
  set (← (← outer.hide hidden).declareAll names)
  fill names.length
  modify fun inner => inner.enter outlives
  body
  set (outer.leaveLoop (← get))

/-- Judges a function, given the names of its parameters, and puts it into a slot. -/
def Judgement.function (names : List (List Char)) (more : Bool) (body : Judgement Unit) :
    Judgement Operand := do
  let outer ← get
  set (← (outer.enterFunction more).declareAll names)
  fill names.length
  body
  set (← outer.leaveFunction (← get))
  return .ofSlot (← Operand.result.push)

/-- The parameters of a method: the object comes first. -/
def Parameters.ofMethod (parameters : Parameters) (isMethod : Bool) : List (List Char) :=
  if isMethod then "self".toList :: parameters.names else parameters.names

/-! ## Tables -/

/-- The items of a table that are at hand. -/
structure Items where
  count : Nat := 0
  /-- The last one, as long as it is in no slot. -/
  last : Option Operand := none

namespace Items

/-- How many items are at hand before they go into the table. -/
def limit : Nat :=
  50

/-- The items once the last one is in a slot.  Enough of them go into the table,
which stands in a given slot. -/
def settled (items : Items) (table : Nat) : Judgement Items := do
  match items.last with
  | none => return items
  | some operand =>
    discard operand.push
    if items.count = limit then
      fillTo (table + 1)
      return {}
    else return { count := items.count }

/-- All items go into the table. -/
def finish (items : Items) (table : Nat) : Judgement Unit := do
  if let some operand := items.last then operand.pushLast
  if items.count ≠ 0 then fillTo (table + 1)

end Items

/-- A field of the table in a slot takes a value.  Nothing of it stays at hand. -/
def Judgement.setField (table : Nat) (key value : Judgement Operand) : Judgement Unit := do
  let filled := (← get).filled
  let target ← (Operand.ofSlot table).field (← key)
  target.assign (← value)
  fillTo filled

/-! ## Calls and assignments -/

/-- Puts a function into the first slot of a call. -/
def Operand.asCallee (operand : Operand) : Judgement Nat :=
  operand.push

/-- Puts a method and its object into the first slots of a call. -/
def Operand.asMethod (object : Operand) (name : List Char) : Judgement Nat := do
  object.consume
  let slot ← next
  fill 1
  (← (Operand.ofLetters name).compact).release
  return slot

/-- A target of an assignment that does not lose its table or its key to a
variable that is assigned to as well, given the slot of a copy. -/
def Source.keptFrom (target assigned : Source) (copy : Nat) : Source :=
  match target, assigned with
  | .capturedField table, .captured used =>
    if table = used then .field copy none else target
  | .field table key, .own changed =>
    .field (if table = changed then copy else table)
      (key.map fun index => if index = changed then copy else index)
  | _, _ => target

/-- The targets before a further one, of which a variable that they need is
copied. -/
def Judgement.keepTargets (before : List Source) (assigned : Source) :
    Judgement (List Source) := do
  let copy := (← get).filled
  let kept := before.map fun target => target.keptFrom assigned copy
  if kept ≠ before then fill 1
  return kept ++ [assigned]

/-! ## Phrases -/

mutual

/-- Judges an expression. -/
def Expression.judged : Expression → Judgement Operand
  | .nil => return .ofConstant .nil
  | .truth value => return .ofConstant (.truth value)
  | .number letters => return .ofConstant (.ofNumeral letters)
  | .text letters => return .ofConstant (.text ((Literal.bytes? letters).getD []))
  | .more => do
    require (← get).more
    return { source := .more }
  | .closure parameters body => Judgement.function parameters.names parameters.more body.judged
  | .table fields => do
    let table ← next
    fields.judged table {}
    return .ofSlot table
  | .primary inner => inner.judged
  | .unary operator operand => do operator.applied (← operand.judged)
  | .binary left operator right => do
    let held ← operator.held (← left.judged)
    operator.applied held (← right.judged)

def Primary.judged : Primary → Judgement Operand
  | .place inner => inner.judged
  | .call inner => inner.judged
  | .grouped inner => do (← inner.judged).fetch

def Place.judged : Place → Judgement Operand
  | .named name => Operand.ofName name
  | .field table name => do (← table.judged).named name
  | .index table key => do
    let holder ← (← table.judged).asTable
    holder.field (← (← key.judged).evaluate)

def Call.judged : Call → Judgement Operand
  | .function callee arguments => do
    let slot ← (← callee.judged).asCallee
    arguments.judged
    fillTo (slot + 1)
    return { source := .call slot }
  | .method object name arguments => do
    let slot ← (← object.judged).asMethod name
    arguments.judged
    fillTo (slot + 1)
    return { source := .call slot }

/-- Judges arguments, which all go into slots. -/
def Arguments.judged : Arguments → Judgement Unit
  | .empty => pure ()
  | .listed values => do (← values.judged).pushLast
  | .table fields => do
    let table ← next
    fields.judged table {}
  | .text letters => discard (Operand.ofConstant (.text ((Literal.bytes? letters).getD []))).push

/-- Judges expressions, all but the last of which go into slots. -/
def Expressions.judged : Expressions → Judgement Operand
  | .last value => value.judged
  | .next value rest => do
    discard (← value.judged).push
    rest.judged

/-- Judges the fields of a table in a slot, given the items at hand. -/
def Fields.judged (table : Nat) (items : Items) : Fields → Judgement Unit
  | .empty => items.finish table
  | .last field => do (← field.judged table (← items.settled table)).finish table
  | .next field _ rest => do rest.judged table (← field.judged table (← items.settled table))

/-- Judges a field of a table in a slot, given the items in slots. -/
def Field.judged (table : Nat) (items : Items) : Field → Judgement Items
  | .item value => return { count := items.count + 1, last := some (← value.judged) }
  | .named name value => do
    setField table (pure (.ofLetters name)) value.judged
    return items
  | .keyed key value => do
    setField table (do (← key.judged).evaluate) value.judged
    return items

def Block.judged : Block → Judgement Unit
  | .finished => pure ()
  | .returning _ => pure ()
  | .returningValues (.last value) _ => do
    let operand ← value.judged
    if operand.isOpen then operand.pushLast else discard operand.place
    modify fun scope => { scope with filled := scope.slots }
  | .returningValues values _ => do
    (← values.judged).pushLast
    modify fun scope => { scope with filled := scope.slots }
  | .next statement rest => do
    statement.judged rest.isIdle
    modify fun scope => { scope with filled := scope.slots }
    rest.judged

/-- Judges a statement, given whether nothing but labels and empty statements
follow it in its block. -/
def Statement.judged (ends : Bool) : Statement → Judgement Unit
  | .empty => pure ()
  | .assign targets values => do
    let target ← targets.judged []
    let last ← values.judged
    if values.count = targets.count then
      ({ source := target } : Operand).assign last.single
    else fit targets.count values.count (some last)
  | .call inner => discard inner.judged
  | .label name => do set (← (← get).label name ends)
  | .exit => modify fun scope => scope.jump .loopEnd
  | .jump name => modify fun scope => scope.jumpTo name
  | .enclosed body => Judgement.block false body.judged
  | .whileLoop condition body => do
    discard ((← condition.judged).goOnIf true)
    loopBody 0 [] false body.judged
  | .repeatLoop body condition =>
    loopBody 0 [] true do
      body.judged
      discard ((← condition.judged).goOnIf true)
  | .conditional condition body rest => do
    discard ((← condition.judged).goOnIf !body.startsWithExit)
    Judgement.block false body.judged
    rest.judged
  | .numericLoop name first limit body => do
    discard (← first.judged).push
    discard (← limit.judged).push
    fill 1
    loopBody 3 [name] false body.judged
  | .steppedLoop name first limit step body => do
    discard (← first.judged).push
    discard (← limit.judged).push
    discard (← step.judged).push
    loopBody 3 [name] false body.judged
  | .genericLoop name others values body => do
    fit 4 values.count (some (← values.judged))
    room 3
    loopBody 4 (name :: others) false body.judged
  | .function path parameters body => do
    require (!path.fields.isEmpty || path.method.isSome || (← get).canAssign path.base)
    let target ← (path.fields ++ path.method.toList).foldlM Operand.named
      (← Operand.ofName path.base)
    target.assign
      (← Judgement.function (parameters.ofMethod path.method.isSome) parameters.more body.judged)
  | .localFunction name parameters body => do
    set (← (← get).declare name false none)
    discard (Judgement.function parameters.names parameters.more body.judged)
  | .declare first others => do
    require (closesOnce (first :: others))
    fit (others.length + 1) 0 none
    set (← (← get).declareLocals none (first :: others))
  | .declareValues first others values => do
    require (closesOnce (first :: others))
    let last ← values.judged
    let known := knownValue? (first :: others) values.count last
    if known.isNone then fit (others.length + 1) values.count (some last)
    set (← (← get).declareLocals known (first :: others))

/-- Judges the targets of an assignment after some others, and gives the last one. -/
def Targets.judged (before : List Source) : Targets → Judgement Source
  | .last target => do
    let assigned ← target.assigned
    discard (keepTargets before assigned)
    return assigned
  | .next target rest => do
    let assigned ← target.assigned
    rest.judged (← keepTargets before assigned)

/-- Judges a place that is assigned to. -/
def Place.assigned : Place → Judgement Source
  | .named name => do
    require ((← get).canAssign name)
    return (← Operand.ofName name).source
  | .field table name => do return (← (← table.judged).named name).source
  | .index table key => do
    let holder ← (← table.judged).asTable
    return (← holder.field (← (← key.judged).evaluate)).source

/-- Judges what follows the first branch of a conditional. -/
def Alternatives.judged : Alternatives → Judgement Unit
  | .finished => pure ()
  | .otherwise body => Judgement.block false body.judged
  | .next condition body rest => do
    discard ((← condition.judged).goOnIf !body.startsWithExit)
    Judgement.block false body.judged
    rest.judged

end

/-- Whether a block is a script that the interpreter accepts: its names, labels
and jumps are in order, and its functions have room for what they hold. -/
def Block.isAcceptable (chunk : Block) : Bool :=
  match chunk.judged.run .start with
  | some ((), final) => (Scope.start.leaveFunction final).isSome
  | none => false

end Lua

end LogPipeline
