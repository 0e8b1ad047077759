import LogPipeline.Lua.Token

namespace LogPipeline

namespace Lua

/-!
# The grammar of scripts

The phrases of the grammar are types, one constructor for each form that a
phrase can take.  `tokens` spells a phrase.  So a row of tokens obeys the
grammar when it spells a block.
-/

/-- The operators before one operand. -/
inductive UnaryOperator where
  | negate
  | not
  | length
  | complement
deriving DecidableEq

/-- The operators between two operands. -/
inductive BinaryOperator where
  | or
  | and
  | less
  | greater
  | lessOrEqual
  | greaterOrEqual
  | unequal
  | equal
  | bitOr
  | bitXor
  | bitAnd
  | shiftLeft
  | shiftRight
  | concatenate
  | add
  | subtract
  | multiply
  | divide
  | floorDivide
  | modulo
  | power
deriving DecidableEq

/-- What stands between two fields of a table. -/
inductive Separator where
  | comma
  | semicolon
deriving DecidableEq

/-- How the use of a local variable can be restricted. -/
inductive Restriction where
  | constant
  | closed
deriving DecidableEq

/-- A local variable with its restriction, if it has one. -/
structure Declared where
  name : List Char
  restriction : Option Restriction := none
deriving DecidableEq

/-- The parameters of a function: names, and whether more may follow. -/
structure Parameters where
  names : List (List Char) := []
  more : Bool := false
deriving DecidableEq

/-- The place that a function statement names: a variable, fields below it,
and a method at the end, if there is one. -/
structure FunctionPath where
  base : List Char
  fields : List (List Char) := []
  method : Option (List Char) := none
deriving DecidableEq

mutual

/-- An expression. -/
inductive Expression where
  | nil
  | truth (value : Bool)
  | number (letters : List Char)
  | text (letters : List Char)
  /-- The further arguments of the function. -/
  | more
  | closure (parameters : Parameters) (body : Block)
  | table (fields : Fields)
  | primary (inner : Primary)
  | unary (operator : UnaryOperator) (operand : Expression)
  | binary (left : Expression) (operator : BinaryOperator) (right : Expression)

/-- An expression that can be called and looked into. -/
inductive Primary where
  | place (inner : Place)
  | call (inner : Call)
  | grouped (inner : Expression)

/-- A place that can be assigned to. -/
inductive Place where
  | named (name : List Char)
  | field (table : Primary) (name : List Char)
  | index (table : Primary) (key : Expression)

/-- A call of a function or of a method. -/
inductive Call where
  | function (callee : Primary) (arguments : Arguments)
  | method (object : Primary) (name : List Char) (arguments : Arguments)

/-- The arguments of a call: none or some in brackets, a lone table, or a lone text. -/
inductive Arguments where
  | empty
  | listed (values : Expressions)
  | table (fields : Fields)
  | text (letters : List Char)

/-- One or more expressions. -/
inductive Expressions where
  | last (value : Expression)
  | next (value : Expression) (rest : Expressions)

/-- The fields of a table, a separator at the end allowed. -/
inductive Fields where
  | empty
  | last (field : Field)
  | next (field : Field) (separator : Separator) (rest : Fields)

/-- A field of a table. -/
inductive Field where
  | item (value : Expression)
  | named (name : List Char) (value : Expression)
  | keyed (key value : Expression)

/-- Statements in a row, with a return at the end at will. -/
inductive Block where
  | finished
  | returning (semicolon : Bool)
  | returningValues (values : Expressions) (semicolon : Bool)
  | next (statement : Statement) (rest : Block)

/-- A statement. -/
inductive Statement where
  | empty
  | assign (targets : Targets) (values : Expressions)
  | call (inner : Call)
  | label (name : List Char)
  | exit
  | jump (name : List Char)
  | enclosed (body : Block)
  | whileLoop (condition : Expression) (body : Block)
  | repeatLoop (body : Block) (condition : Expression)
  | conditional (condition : Expression) (body : Block) (rest : Alternatives)
  | numericLoop (name : List Char) (first limit : Expression) (body : Block)
  | steppedLoop (name : List Char) (first limit step : Expression) (body : Block)
  | genericLoop (name : List Char) (others : List (List Char)) (values : Expressions) (body : Block)
  | function (path : FunctionPath) (parameters : Parameters) (body : Block)
  | localFunction (name : List Char) (parameters : Parameters) (body : Block)
  | declare (first : Declared) (others : List Declared)
  | declareValues (first : Declared) (others : List Declared) (values : Expressions)

/-- One or more places on the left of an assignment. -/
inductive Targets where
  | last (target : Place)
  | next (target : Place) (rest : Targets)

/-- What follows the first branch of a conditional. -/
inductive Alternatives where
  | finished
  | otherwise (body : Block)
  | next (condition : Expression) (body : Block) (rest : Alternatives)

end

/-! ## Spelling -/

namespace UnaryOperator

def all : List UnaryOperator :=
  [.negate, .not, .length, .complement]

def token : UnaryOperator → Token
  | .negate => .ofSymbol "-"
  | .not => .ofWord "not"
  | .length => .ofSymbol "#"
  | .complement => .ofSymbol "~"

def ofToken? (token : Token) : Option UnaryOperator :=
  all.find? fun operator => operator.token = token

end UnaryOperator

namespace BinaryOperator

def all : List BinaryOperator :=
  [.or, .and, .less, .greater, .lessOrEqual, .greaterOrEqual, .unequal, .equal, .bitOr,
    .bitXor, .bitAnd, .shiftLeft, .shiftRight, .concatenate, .add, .subtract, .multiply,
    .divide, .floorDivide, .modulo, .power]

def token : BinaryOperator → Token
  | .or => .ofWord "or"
  | .and => .ofWord "and"
  | .less => .ofSymbol "<"
  | .greater => .ofSymbol ">"
  | .lessOrEqual => .ofSymbol "<="
  | .greaterOrEqual => .ofSymbol ">="
  | .unequal => .ofSymbol "~="
  | .equal => .ofSymbol "=="
  | .bitOr => .ofSymbol "|"
  | .bitXor => .ofSymbol "~"
  | .bitAnd => .ofSymbol "&"
  | .shiftLeft => .ofSymbol "<<"
  | .shiftRight => .ofSymbol ">>"
  | .concatenate => .ofSymbol ".."
  | .add => .ofSymbol "+"
  | .subtract => .ofSymbol "-"
  | .multiply => .ofSymbol "*"
  | .divide => .ofSymbol "/"
  | .floorDivide => .ofSymbol "//"
  | .modulo => .ofSymbol "%"
  | .power => .ofSymbol "^"

def ofToken? (token : Token) : Option BinaryOperator :=
  all.find? fun operator => operator.token = token

/-- How strongly an operator binds what stands on its left. -/
def leftStrength : BinaryOperator → Nat
  | .or => 1
  | .and => 2
  | .less | .greater | .lessOrEqual | .greaterOrEqual | .unequal | .equal => 3
  | .bitOr => 4
  | .bitXor => 5
  | .bitAnd => 6
  | .shiftLeft | .shiftRight => 7
  | .concatenate => 9
  | .add | .subtract => 10
  | .multiply | .divide | .floorDivide | .modulo => 11
  | .power => 14

/-- How strongly an operator binds what stands on its right.  Where this is
less than on its left, a row of the operator groups from the right. -/
def rightStrength : BinaryOperator → Nat
  | .concatenate => 8
  | .power => 13
  | operator => operator.leftStrength

end BinaryOperator

/-- How strongly an operator before one operand binds it. -/
def UnaryOperator.strength : Nat :=
  12

def Separator.token : Separator → Token
  | .comma => .ofSymbol ","
  | .semicolon => .ofSymbol ";"

def Restriction.word : Restriction → String
  | .constant => "const"
  | .closed => "close"

def commaSeparated (rows : List (List Token)) : List Token :=
  [Token.ofSymbol ","].intercalate rows

def Declared.tokens (declared : Declared) : List Token :=
  .ofName declared.name ::
    match declared.restriction with
    | some restriction => [.ofSymbol "<", .ofName restriction.word.toList, .ofSymbol ">"]
    | none => []

def nameTokens (names : List (List Char)) : List Token :=
  commaSeparated (names.map fun name => [Token.ofName name])

def Parameters.tokens (parameters : Parameters) : List Token :=
  .ofSymbol "(" ::
    commaSeparated (parameters.names.map (fun name => [Token.ofName name]) ++
      if parameters.more then [[.ofSymbol "..."]] else []) ++ [.ofSymbol ")"]

def FunctionPath.tokens (path : FunctionPath) : List Token :=
  .ofName path.base :: path.fields.flatMap (fun field => [.ofSymbol ".", .ofName field]) ++
    match path.method with
    | some method => [.ofSymbol ":", .ofName method]
    | none => []

def semicolonTokens (present : Bool) : List Token :=
  if present then [.ofSymbol ";"] else []

mutual

/-- The tokens of an expression. -/
def Expression.tokens : Expression → List Token
  | .nil => [.ofWord "nil"]
  | .truth value => [.ofWord (if value then "true" else "false")]
  | .number letters => [{ kind := .number, letters := letters }]
  | .text letters => [{ kind := .string, letters := letters }]
  | .more => [.ofSymbol "..."]
  | .closure parameters body =>
    .ofWord "function" :: parameters.tokens ++ body.tokens ++ [.ofWord "end"]
  | .table fields => .ofSymbol "\x7b" :: fields.tokens ++ [.ofSymbol "\x7d"]
  | .primary inner => inner.tokens
  | .unary operator operand => operator.token :: operand.tokens
  | .binary left operator right => left.tokens ++ operator.token :: right.tokens

def Primary.tokens : Primary → List Token
  | .place inner => inner.tokens
  | .call inner => inner.tokens
  | .grouped inner => .ofSymbol "(" :: inner.tokens ++ [.ofSymbol ")"]

def Place.tokens : Place → List Token
  | .named name => [.ofName name]
  | .field table name => table.tokens ++ [.ofSymbol ".", .ofName name]
  | .index table key => table.tokens ++ .ofSymbol "[" :: key.tokens ++ [.ofSymbol "]"]

def Call.tokens : Call → List Token
  | .function callee arguments => callee.tokens ++ arguments.tokens
  | .method object name arguments =>
    object.tokens ++ .ofSymbol ":" :: .ofName name :: arguments.tokens

def Arguments.tokens : Arguments → List Token
  | .empty => [.ofSymbol "(", .ofSymbol ")"]
  | .listed values => .ofSymbol "(" :: values.tokens ++ [.ofSymbol ")"]
  | .table fields => .ofSymbol "\x7b" :: fields.tokens ++ [.ofSymbol "\x7d"]
  | .text letters => [{ kind := .string, letters := letters }]

def Expressions.tokens : Expressions → List Token
  | .last value => value.tokens
  | .next value rest => value.tokens ++ .ofSymbol "," :: rest.tokens

def Fields.tokens : Fields → List Token
  | .empty => []
  | .last field => field.tokens
  | .next field separator rest => field.tokens ++ separator.token :: rest.tokens

def Field.tokens : Field → List Token
  | .item value => value.tokens
  | .named name value => .ofName name :: .ofSymbol "=" :: value.tokens
  | .keyed key value =>
    .ofSymbol "[" :: key.tokens ++ .ofSymbol "]" :: .ofSymbol "=" :: value.tokens

def Block.tokens : Block → List Token
  | .finished => []
  | .returning semicolon => .ofWord "return" :: semicolonTokens semicolon
  | .returningValues values semicolon =>
    .ofWord "return" :: values.tokens ++ semicolonTokens semicolon
  | .next statement rest => statement.tokens ++ rest.tokens

def Statement.tokens : Statement → List Token
  | .empty => [.ofSymbol ";"]
  | .assign targets values => targets.tokens ++ .ofSymbol "=" :: values.tokens
  | .call inner => inner.tokens
  | .label name => [.ofSymbol "::", .ofName name, .ofSymbol "::"]
  | .exit => [.ofWord "break"]
  | .jump name => [.ofWord "goto", .ofName name]
  | .enclosed body => .ofWord "do" :: body.tokens ++ [.ofWord "end"]
  | .whileLoop condition body =>
    .ofWord "while" :: condition.tokens ++ .ofWord "do" :: body.tokens ++ [.ofWord "end"]
  | .repeatLoop body condition =>
    .ofWord "repeat" :: body.tokens ++ .ofWord "until" :: condition.tokens
  | .conditional condition body rest =>
    .ofWord "if" :: condition.tokens ++ .ofWord "then" :: body.tokens ++ rest.tokens
  | .numericLoop name first limit body =>
    .ofWord "for" :: .ofName name :: .ofSymbol "=" :: first.tokens ++ .ofSymbol "," ::
      limit.tokens ++ .ofWord "do" :: body.tokens ++ [.ofWord "end"]
  | .steppedLoop name first limit step body =>
    .ofWord "for" :: .ofName name :: .ofSymbol "=" :: first.tokens ++ .ofSymbol "," ::
      limit.tokens ++ .ofSymbol "," :: step.tokens ++ .ofWord "do" :: body.tokens ++
        [.ofWord "end"]
  | .genericLoop name others values body =>
    .ofWord "for" :: nameTokens (name :: others) ++ .ofWord "in" :: values.tokens ++ .ofWord "do" ::
      body.tokens ++ [.ofWord "end"]
  | .function path parameters body =>
    .ofWord "function" :: path.tokens ++ parameters.tokens ++ body.tokens ++ [.ofWord "end"]
  | .localFunction name parameters body =>
    .ofWord "local" :: .ofWord "function" :: .ofName name :: parameters.tokens ++
      body.tokens ++ [.ofWord "end"]
  | .declare first others =>
    .ofWord "local" :: commaSeparated ((first :: others).map Declared.tokens)
  | .declareValues first others values =>
    .ofWord "local" :: commaSeparated ((first :: others).map Declared.tokens) ++
      .ofSymbol "=" :: values.tokens

def Targets.tokens : Targets → List Token
  | .last target => target.tokens
  | .next target rest => target.tokens ++ .ofSymbol "," :: rest.tokens

def Alternatives.tokens : Alternatives → List Token
  | .finished => [.ofWord "end"]
  | .otherwise body => .ofWord "else" :: body.tokens ++ [.ofWord "end"]
  | .next condition body rest =>
    .ofWord "elseif" :: condition.tokens ++ .ofWord "then" :: body.tokens ++ rest.tokens

end

end Lua

end LogPipeline
