import LogPipeline.Lua.Grammar

namespace LogPipeline

namespace Lua

/-!
# Reading phrases from tokens

A reader takes tokens from the front of a row.  Each statement, each
expression and each further place on the left of an assignment is a level of
nesting, and the interpreter bears 199 of them.  So the readers of a level are
made from the readers of the level below, and the recursion is on the levels
that are left.  Within a level only rows are read, which have no more items than
the script has tokens.
-/

/-- What takes tokens from the front of a row, or refuses. -/
abbrev Reader : Type → Type :=
  StateT (List Token) Option

namespace Reading

def peek : Reader (Option Token) := do
  return (← get).head?

/-- Takes the next token if it is a given one, and tells whether it was. -/
def skip (token : Token) : Reader Bool := do
  if (← peek) = some token then
    modify List.tail
    return true
  else
    return false

def expect (token : Token) : Reader Unit := do
  unless ← skip token do failure

/-- Takes the next token, which has to be of a kind. -/
def letters (kind : TokenKind) : Reader (List Char) := do
  match ← peek with
  | some token =>
    if token.kind = kind then
      modify List.tail
      return token.letters
    else failure
  | none => failure

/-- Takes the next token if it is of a kind. -/
def letters? (kind : TokenKind) : Reader (Option (List Char)) := do
  if (← peek).any fun token => token.kind = kind then
    return some (← letters kind)
  else
    return none

def name : Reader (List Char) :=
  letters .name

/-- One or more items with commas between them, at most a number of them. -/
def listWithin {α : Type} (item : Reader α) : Nat → Reader (α × List α)
  | 0 => failure
  | count + 1 => do
    let first ← item
    if ← skip (.ofSymbol ",") then
      let (second, others) ← listWithin item count
      return (first, second :: others)
    else
      return (first, [])

/-- The parameters of a function after the opening bracket, at most a number
of them. -/
def parametersWithin : Nat → Reader Parameters
  | 0 => failure
  | count + 1 => do
    if ← skip (.ofSymbol "...") then
      expect (.ofSymbol ")")
      return { more := true }
    else
      let first ← name
      if ← skip (.ofSymbol ",") then
        let others ← parametersWithin count
        return { others with names := first :: others.names }
      else
        expect (.ofSymbol ")")
        return { names := [first] }

def parameters (bound : Nat) : Reader Parameters := do
  expect (.ofSymbol "(")
  if ← skip (.ofSymbol ")") then return {}
  else parametersWithin bound

def declared : Reader Declared := do
  let variableName ← name
  if ← skip (.ofSymbol "<") then
    let word ← name
    expect (.ofSymbol ">")
    match [Restriction.constant, .closed].find? fun restriction =>
      restriction.word.toList = word with
    | some restriction => return { name := variableName, restriction := some restriction }
    | none => failure
  else
    return { name := variableName }

/-- The fields and the method of the place that a function statement names, at
most a number of them. -/
def pathWithin (base : List Char) : Nat → Reader FunctionPath
  | 0 => failure
  | count + 1 => do
    if ← skip (.ofSymbol ".") then
      let field ← name
      let path ← pathWithin base count
      return { path with fields := field :: path.fields }
    else if ← skip (.ofSymbol ":") then
      return { base := base, method := some (← name) }
    else
      return { base := base }

def path (bound : Nat) : Reader FunctionPath := do
  pathWithin (← name) bound

/-- The readers of a level. -/
structure Level where
  /-- How many levels this one and those below it are. -/
  levels : Nat
  /-- More than the items of any row. -/
  bound : Nat
  /-- An expression whose operators bind more strongly than a bound. -/
  expression : Nat → Reader Expression
  statement : Reader Statement
  /-- A return and what belongs to it. -/
  returning : Reader Block
  /-- The rest of an assignment after a place. -/
  assignment : Place → Reader (Targets × Expressions)

/-- The level that bears nothing. -/
def noLevel (bound : Nat) : Level where
  levels := 0
  bound := bound
  expression _ := failure
  statement := failure
  returning := failure
  assignment _ := failure

/-! ## Expressions -/

/-- Expressions with commas between them, at most a number of them. -/
def expressionsWithin (inner : Level) : Nat → Reader Expressions
  | 0 => failure
  | count + 1 => do
    let value ← inner.expression 0
    if ← skip (.ofSymbol ",") then
      return .next value (← expressionsWithin inner count)
    else
      return .last value

/-- One or more expressions with commas between them. -/
def expressions (inner : Level) : Reader Expressions :=
  expressionsWithin inner inner.bound

/-- A field of a table.  A name begins a named field only before an equals sign. -/
def field (inner : Level) : Reader Field := do
  match ← get with
  | first :: second :: _ =>
    if first.kind = .name ∧ second = .ofSymbol "=" then
      let key ← name
      expect (.ofSymbol "=")
      return .named key (← inner.expression 0)
    else if ← skip (.ofSymbol "[") then
      let key ← inner.expression 0
      expect (.ofSymbol "]")
      expect (.ofSymbol "=")
      return .keyed key (← inner.expression 0)
    else
      return .item (← inner.expression 0)
  | _ => failure

def separator? : Reader (Option Separator) := do
  if ← skip (.ofSymbol ",") then return some .comma
  else if ← skip (.ofSymbol ";") then return some .semicolon
  else return none

/-- At most a number of fields up to the closing brace. -/
def fieldsWithin (inner : Level) : Nat → Reader Fields
  | 0 => failure
  | count + 1 => do
    if ← skip (.ofSymbol "\x7d") then return .empty
    else
      let first ← field inner
      match ← separator? with
      | some separator => return .next first separator (← fieldsWithin inner count)
      | none =>
        expect (.ofSymbol "\x7d")
        return .last first

/-- The fields of a table after the opening brace, the closing brace included. -/
def fields (inner : Level) : Reader Fields :=
  fieldsWithin inner inner.bound

def arguments (inner : Level) : Reader Arguments := do
  if ← skip (.ofSymbol "(") then
    if ← skip (.ofSymbol ")") then return .empty
    else
      let values ← expressions inner
      expect (.ofSymbol ")")
      return .listed values
  else if ← skip (.ofSymbol "\x7b") then
    return .table (← fields inner)
  else
    return .text (← letters .string)

def startsArguments (token : Token) : Bool :=
  token.kind = .string || token = .ofSymbol "(" || token = .ofSymbol "\x7b"

/-- What goes on a primary expression, at most a number of times. -/
def suffixesWithin (inner : Level) : Nat → Primary → Reader Primary
  | 0, _ => failure
  | count + 1, primary => do
    if ← skip (.ofSymbol ".") then
      suffixesWithin inner count (.place (.field primary (← name)))
    else if ← skip (.ofSymbol "[") then
      let key ← inner.expression 0
      expect (.ofSymbol "]")
      suffixesWithin inner count (.place (.index primary key))
    else if ← skip (.ofSymbol ":") then
      let method ← name
      suffixesWithin inner count (.call (.method primary method (← arguments inner)))
    else if (← peek).any startsArguments then
      suffixesWithin inner count (.call (.function primary (← arguments inner)))
    else
      return primary

/-- What a primary expression begins with. -/
def primaryStart (inner : Level) : Reader Primary := do
  if ← skip (.ofSymbol "(") then
    let value ← inner.expression 0
    expect (.ofSymbol ")")
    return .grouped value
  else
    return .place (.named (← name))

def primary (inner : Level) : Reader Primary := do
  suffixesWithin inner inner.bound (← primaryStart inner)

def endsBlock (token : Token) : Bool :=
  token.isAnyWord ["else", "elseif", "end", "until"]

/-- A block of at most a number of statements. -/
def blockWithin (inner : Level) : Nat → Reader Block
  | 0 => failure
  | count + 1 => do
    match ← peek with
    | none => return .finished
    | some token =>
      if endsBlock token then return .finished
      else if token = .ofWord "return" then inner.returning
      else
        let statement ← inner.statement
        return .next statement (← blockWithin inner count)

/-- A block, up to a token that ends it or the end of the tokens. -/
def block (inner : Level) : Reader Block :=
  blockWithin inner inner.bound

def blockToEnd (inner : Level) : Reader Block := do
  let body ← block inner
  expect (.ofWord "end")
  return body

/-- An expression without operators. -/
def simple (inner : Level) : Reader Expression := do
  if let some number ← letters? .number then return .number number
  else if let some text ← letters? .string then return .text text
  else if ← skip (.ofWord "nil") then return .nil
  else if ← skip (.ofWord "true") then return .truth true
  else if ← skip (.ofWord "false") then return .truth false
  else if ← skip (.ofSymbol "...") then return .more
  else if ← skip (.ofSymbol "\x7b") then return .table (← fields inner)
  else if ← skip (.ofWord "function") then
    let taken ← parameters inner.bound
    return .closure taken (← blockToEnd inner)
  else return .primary (← primary inner)

/-- An operand: an expression without operators between operands. -/
def operand (inner : Level) : Reader Expression := do
  match (← peek).bind UnaryOperator.ofToken? with
  | some operator =>
    expect operator.token
    return .unary operator (← inner.expression UnaryOperator.strength)
  | none => simple inner

/-- What goes on an expression, at most a number of times: operators that bind
their left side more strongly than a bound, each with its right side. -/
def chainWithin (inner : Level) (bound : Nat) : Nat → Expression → Reader Expression
  | 0, _ => failure
  | count + 1, left => do
    match (← peek).bind BinaryOperator.ofToken? with
    | some operator =>
      if bound < operator.leftStrength then
        expect operator.token
        let right ← inner.expression operator.rightStrength
        chainWithin inner bound count (.binary left operator right)
      else return left
    | none => return left

/-- An expression whose operators bind more strongly than a bound. -/
def expression (inner : Level) (bound : Nat) : Reader Expression := do
  chainWithin inner bound inner.bound (← operand inner)

/-! ## Statements -/

/-- The levels that a row of labels and empty statements needs after a label:
each label holds those that follow it. -/
def levelsAfterLabel : List Token → Nat
  | first :: second :: third :: rest =>
    if first = .ofSymbol ";" then max 1 (levelsAfterLabel (second :: third :: rest))
    else if first = .ofSymbol "::" then levelsAfterLabel rest + 1
    else 0
  | first :: _ => if first = .ofSymbol ";" then 1 else 0
  | [] => 0

/-- A label after its first colons. -/
def label (inner : Level) : Reader Statement := do
  let labelName ← name
  expect (.ofSymbol "::")
  if levelsAfterLabel (← get) ≤ inner.levels then return .label labelName
  else failure

/-- What follows the first branch of a conditional, with at most a number of
further conditions. -/
def alternativesWithin (inner : Level) : Nat → Reader Alternatives
  | 0 => failure
  | count + 1 => do
    if ← skip (.ofWord "elseif") then
      let condition ← inner.expression 0
      expect (.ofWord "then")
      let body ← block inner
      return .next condition body (← alternativesWithin inner count)
    else if ← skip (.ofWord "else") then
      return .otherwise (← blockToEnd inner)
    else
      expect (.ofWord "end")
      return .finished

/-- A conditional after its first keyword. -/
def conditional (inner : Level) : Reader Statement := do
  let condition ← inner.expression 0
  expect (.ofWord "then")
  let body ← block inner
  return .conditional condition body (← alternativesWithin inner inner.bound)

/-- A counting loop after the equals sign. -/
def countingLoop (inner : Level) (variableName : List Char) : Reader Statement := do
  let first ← inner.expression 0
  expect (.ofSymbol ",")
  let limit ← inner.expression 0
  if ← skip (.ofSymbol ",") then
    let step ← inner.expression 0
    expect (.ofWord "do")
    return .steppedLoop variableName first limit step (← blockToEnd inner)
  else
    expect (.ofWord "do")
    return .numericLoop variableName first limit (← blockToEnd inner)

/-- A loop over what expressions give, after its names. -/
def genericLoop (inner : Level) (first : List Char) (others : List (List Char)) :
    Reader Statement := do
  expect (.ofWord "in")
  let values ← expressions inner
  expect (.ofWord "do")
  return .genericLoop first others values (← blockToEnd inner)

/-- A loop after the keyword `for`.  Only a single name can count. -/
def loop (inner : Level) : Reader Statement := do
  match ← listWithin name inner.bound with
  | (first, []) =>
    if ← skip (.ofSymbol "=") then countingLoop inner first
    else genericLoop inner first []
  | (first, others) => genericLoop inner first others

/-- A declaration after the keyword `local`. -/
def localStatement (inner : Level) : Reader Statement := do
  if ← skip (.ofWord "function") then
    let functionName ← name
    let taken ← parameters inner.bound
    return .localFunction functionName taken (← blockToEnd inner)
  else
    let (first, others) ← listWithin declared inner.bound
    if ← skip (.ofSymbol "=") then
      return .declareValues first others (← expressions inner)
    else
      return .declare first others

/-- The rest of an assignment after a place. -/
def assignment (inner : Level) (place : Place) : Reader (Targets × Expressions) := do
  if ← skip (.ofSymbol ",") then
    match ← primary inner with
    | .place next =>
      let (targets, values) ← inner.assignment next
      return (.next place targets, values)
    | _ => failure
  else
    expect (.ofSymbol "=")
    return (.last place, ← expressions inner)

/-- A statement that begins with no keyword: a call or an assignment. -/
def expressionStatement (inner : Level) : Reader Statement := do
  match ← primary inner with
  | .call call => return .call call
  | .place place =>
    let (targets, values) ← assignment inner place
    return .assign targets values
  | .grouped _ => failure

/-- A statement other than a return. -/
def statement (inner : Level) : Reader Statement := do
  if ← skip (.ofSymbol ";") then return .empty
  else if ← skip (.ofWord "if") then conditional inner
  else if ← skip (.ofWord "while") then
    let condition ← inner.expression 0
    expect (.ofWord "do")
    return .whileLoop condition (← blockToEnd inner)
  else if ← skip (.ofWord "do") then return .enclosed (← blockToEnd inner)
  else if ← skip (.ofWord "for") then loop inner
  else if ← skip (.ofWord "repeat") then
    let body ← block inner
    expect (.ofWord "until")
    return .repeatLoop body (← inner.expression 0)
  else if ← skip (.ofWord "function") then
    let place ← path inner.bound
    let taken ← parameters inner.bound
    return .function place taken (← blockToEnd inner)
  else if ← skip (.ofWord "local") then localStatement inner
  else if ← skip (.ofSymbol "::") then label inner
  else if ← skip (.ofWord "break") then return .exit
  else if ← skip (.ofWord "goto") then return .jump (← name)
  else expressionStatement inner

/-- A return with its values, and the semicolon that may follow it. -/
def returning (inner : Level) : Reader Block := do
  expect (.ofWord "return")
  if (← peek).all fun token => endsBlock token || token = .ofSymbol ";" then
    return .returning (← skip (.ofSymbol ";"))
  else
    let values ← expressions inner
    return .returningValues values (← skip (.ofSymbol ";"))

/-! ## Levels -/

/-- The readers with a number of levels. -/
def level (bound : Nat) : Nat → Level
  | 0 => noLevel bound
  | count + 1 =>
    let inner := level bound count
    { levels := count + 1
      bound := bound
      expression := expression inner
      statement := statement inner
      returning := returning inner
      assignment := assignment inner }

/-- How many levels of nesting the interpreter bears. -/
def levelLimit : Nat :=
  199

end Reading

/-- The block that a whole row of tokens spells, if it spells one with no more
levels of nesting than the interpreter bears. -/
def Block.ofTokens? (tokens : List Token) : Option Block :=
  match (Reading.block (Reading.level (tokens.length + 1) Reading.levelLimit)).run tokens with
  | some (chunk, []) => some chunk
  | _ => none

end Lua

end LogPipeline
