import LogPipeline.Lua.Grammar

namespace LogPipeline

namespace Lua

/-!
# What encloses the tokens of a phrase

The grammar says for each token of a phrase which brackets and which blocks it
stands in.  A bracket, and a word that ends a block, stands outside of what it
opens or closes.  A block begins behind `do`, `then`, `else` and `repeat`, and
behind the parameters of a function.
-/

/-- What can enclose a token: a bracket, or a block of statements. -/
inductive Enclosure where
  | bracket
  | block
deriving DecidableEq

/-- A token of a phrase with what encloses it, innermost first, and what begins
behind it. -/
structure Placed where
  token : Token
  around : List Enclosure
  opens : Option Enclosure := none

/-- What encloses the place behind a token. -/
def Placed.behind (placed : Placed) : List Enclosure :=
  placed.opens.toList ++ placed.around

def plain (around : List Enclosure) (row : List Token) : List Placed :=
  row.map fun token => { token := token, around := around }

def opening (opened : Enclosure) (around : List Enclosure) (token : Token) : List Placed :=
  [{ token := token, around := around, opens := some opened }]

def inBrackets (around : List Enclosure) (first last : String)
    (inside : List Enclosure → List Placed) : List Placed :=
  opening .bracket around (.ofSymbol first) ++ inside (.bracket :: around) ++
    plain around [.ofSymbol last]

def inBlock (around : List Enclosure) (first : String)
    (inside : List Enclosure → List Placed) : List Placed :=
  opening .block around (.ofWord first) ++ inside (.block :: around)

def Parameters.inside (parameters : Parameters) : List Token :=
  commaSeparated (parameters.names.map (fun name => [Token.ofName name]) ++
    if parameters.more then [[.ofSymbol "..."]] else [])

/-- The parameters of a function, its body, and the word that ends it. -/
def bodyPlaced (around : List Enclosure) (parameters : Parameters)
    (body : List Enclosure → List Placed) : List Placed :=
  opening .bracket around (.ofSymbol "(") ++ plain (.bracket :: around) parameters.inside ++
    opening .block around (.ofSymbol ")") ++ body (.block :: around) ++
    plain around [.ofWord "end"]

mutual

/-- The tokens of an expression, each with what encloses it. -/
def Expression.placed (around : List Enclosure) : Expression → List Placed
  | .closure parameters body =>
    plain around [.ofWord "function"] ++ bodyPlaced around parameters body.placed
  | .table fields => inBrackets around "\x7b" "\x7d" fields.placed
  | .primary inner => inner.placed around
  | .unary operator operand => plain around [operator.token] ++ operand.placed around
  | .binary left operator right =>
    left.placed around ++ plain around [operator.token] ++ right.placed around
  | lone => plain around lone.tokens

def Primary.placed (around : List Enclosure) : Primary → List Placed
  | .place inner => inner.placed around
  | .call inner => inner.placed around
  | .grouped inner => inBrackets around "(" ")" inner.placed

def Place.placed (around : List Enclosure) : Place → List Placed
  | .named name => plain around [.ofName name]
  | .field table name => table.placed around ++ plain around [.ofSymbol ".", .ofName name]
  | .index table key => table.placed around ++ inBrackets around "[" "]" key.placed

def Call.placed (around : List Enclosure) : Call → List Placed
  | .function callee arguments => callee.placed around ++ arguments.placed around
  | .method object name arguments =>
    object.placed around ++ plain around [.ofSymbol ":", .ofName name] ++ arguments.placed around

def Arguments.placed (around : List Enclosure) : Arguments → List Placed
  | .empty => inBrackets around "(" ")" fun _ => []
  | .listed values => inBrackets around "(" ")" values.placed
  | .table fields => inBrackets around "\x7b" "\x7d" fields.placed
  | .text letters => plain around [{ kind := .string, letters := letters }]

def Expressions.placed (around : List Enclosure) : Expressions → List Placed
  | .last value => value.placed around
  | .next value rest => value.placed around ++ plain around [.ofSymbol ","] ++ rest.placed around

def Fields.placed (around : List Enclosure) : Fields → List Placed
  | .empty => []
  | .last field => field.placed around
  | .next field separator rest =>
    field.placed around ++ plain around [separator.token] ++ rest.placed around

def Field.placed (around : List Enclosure) : Field → List Placed
  | .item value => value.placed around
  | .named name value => plain around [.ofName name, .ofSymbol "="] ++ value.placed around
  | .keyed key value =>
    inBrackets around "[" "]" key.placed ++ plain around [.ofSymbol "="] ++
      value.placed around

def Block.placed (around : List Enclosure) : Block → List Placed
  | .finished => []
  | .returning semicolon => plain around (.ofWord "return" :: semicolonTokens semicolon)
  | .returningValues values semicolon =>
    plain around [.ofWord "return"] ++ values.placed around ++
      plain around (semicolonTokens semicolon)
  | .next statement rest => statement.placed around ++ rest.placed around

def Statement.placed (around : List Enclosure) : Statement → List Placed
  | .assign targets values =>
    targets.placed around ++ plain around [.ofSymbol "="] ++ values.placed around
  | .call inner => inner.placed around
  | .enclosed body =>
    inBlock around "do" body.placed ++ plain around [.ofWord "end"]
  | .whileLoop condition body =>
    plain around [.ofWord "while"] ++ condition.placed around ++
      inBlock around "do" body.placed ++ plain around [.ofWord "end"]
  | .repeatLoop body condition =>
    inBlock around "repeat" body.placed ++ plain around [.ofWord "until"] ++
      condition.placed around
  | .conditional condition body rest =>
    plain around [.ofWord "if"] ++ condition.placed around ++
      inBlock around "then" body.placed ++ rest.placed around
  | .numericLoop name first limit body =>
    plain around [.ofWord "for", .ofName name, .ofSymbol "="] ++ first.placed around ++
      plain around [.ofSymbol ","] ++ limit.placed around ++
      inBlock around "do" body.placed ++ plain around [.ofWord "end"]
  | .steppedLoop name first limit step body =>
    plain around [.ofWord "for", .ofName name, .ofSymbol "="] ++ first.placed around ++
      plain around [.ofSymbol ","] ++ limit.placed around ++ plain around [.ofSymbol ","] ++
      step.placed around ++ inBlock around "do" body.placed ++
      plain around [.ofWord "end"]
  | .genericLoop name others values body =>
    plain around (.ofWord "for" :: nameTokens (name :: others) ++ [.ofWord "in"]) ++
      values.placed around ++ inBlock around "do" body.placed ++
      plain around [.ofWord "end"]
  | .function path parameters body =>
    plain around (.ofWord "function" :: path.tokens) ++
      bodyPlaced around parameters body.placed
  | .localFunction name parameters body =>
    plain around [.ofWord "local", .ofWord "function", .ofName name] ++
      bodyPlaced around parameters body.placed
  | .declareValues first others values =>
    plain around (.ofWord "local" :: commaSeparated ((first :: others).map Declared.tokens) ++
      [.ofSymbol "="]) ++ values.placed around
  | lone => plain around lone.tokens

def Targets.placed (around : List Enclosure) : Targets → List Placed
  | .last target => target.placed around
  | .next target rest => target.placed around ++ plain around [.ofSymbol ","] ++ rest.placed around

def Alternatives.placed (around : List Enclosure) : Alternatives → List Placed
  | .finished => plain around [.ofWord "end"]
  | .otherwise body =>
    inBlock around "else" body.placed ++ plain around [.ofWord "end"]
  | .next condition body rest =>
    plain around [.ofWord "elseif"] ++ condition.placed around ++
      inBlock around "then" body.placed ++ rest.placed around

end

/-! ## The tokens are those of the phrase -/

section Tokens

variable (around : List Enclosure)

@[simp] theorem map_plain (row : List Token) : (plain around row).map Placed.token = row := by
  simp [plain, Function.comp_def]

@[simp] theorem map_opening (opened : Enclosure) (token : Token) :
    (opening opened around token).map Placed.token = [token] := rfl

@[simp] theorem map_inBrackets (first last : String) (inside : List Enclosure → List Placed) :
    (inBrackets around first last inside).map Placed.token =
      .ofSymbol first :: (inside (.bracket :: around)).map Placed.token ++ [.ofSymbol last] := by
  simp [inBrackets]

@[simp] theorem map_inBlock (first : String) (inside : List Enclosure → List Placed) :
    (inBlock around first inside).map Placed.token =
      .ofWord first :: (inside (.block :: around)).map Placed.token := by
  simp [inBlock]

@[simp] theorem map_bodyPlaced (parameters : Parameters)
    (body : List Enclosure → List Placed) :
    (bodyPlaced around parameters body).map Placed.token =
      parameters.tokens ++ (body (.block :: around)).map Placed.token ++ [.ofWord "end"] := by
  simp [bodyPlaced, Parameters.tokens, Parameters.inside]

end Tokens

mutual

theorem Expression.map_placed (around : List Enclosure) (expression : Expression) :
    (expression.placed around).map Placed.token = expression.tokens := by
  cases expression with
  | closure parameters body => simp [Expression.placed, Expression.tokens, body.map_placed]
  | table fields => simp [Expression.placed, Expression.tokens, fields.map_placed]
  | primary inner => simp [Expression.placed, Expression.tokens, inner.map_placed]
  | unary operator operand => simp [Expression.placed, Expression.tokens, operand.map_placed]
  | binary left operator right =>
    simp [Expression.placed, Expression.tokens, left.map_placed, right.map_placed]
  | _ => simp [Expression.placed, Expression.tokens]

theorem Primary.map_placed (around : List Enclosure) (primary : Primary) :
    (primary.placed around).map Placed.token = primary.tokens := by
  cases primary with
  | place inner => simp [Primary.placed, Primary.tokens, inner.map_placed]
  | call inner => simp [Primary.placed, Primary.tokens, inner.map_placed]
  | grouped inner => simp [Primary.placed, Primary.tokens, inner.map_placed]

theorem Place.map_placed (around : List Enclosure) (place : Place) :
    (place.placed around).map Placed.token = place.tokens := by
  cases place with
  | named name => simp [Place.placed, Place.tokens]
  | field table name => simp [Place.placed, Place.tokens, table.map_placed]
  | index table key => simp [Place.placed, Place.tokens, table.map_placed, key.map_placed]

theorem Call.map_placed (around : List Enclosure) (call : Call) :
    (call.placed around).map Placed.token = call.tokens := by
  cases call with
  | function callee arguments =>
    simp [Call.placed, Call.tokens, callee.map_placed, arguments.map_placed]
  | method object name arguments =>
    simp [Call.placed, Call.tokens, object.map_placed, arguments.map_placed]

theorem Arguments.map_placed (around : List Enclosure) (arguments : Arguments) :
    (arguments.placed around).map Placed.token = arguments.tokens := by
  cases arguments with
  | empty => simp [Arguments.placed, Arguments.tokens]
  | listed values => simp [Arguments.placed, Arguments.tokens, values.map_placed]
  | table fields => simp [Arguments.placed, Arguments.tokens, fields.map_placed]
  | text letters => simp [Arguments.placed, Arguments.tokens]

theorem Expressions.map_placed (around : List Enclosure) (values : Expressions) :
    (values.placed around).map Placed.token = values.tokens := by
  cases values with
  | last value => simp [Expressions.placed, Expressions.tokens, value.map_placed]
  | next value rest =>
    simp [Expressions.placed, Expressions.tokens, value.map_placed, rest.map_placed]

theorem Fields.map_placed (around : List Enclosure) (fields : Fields) :
    (fields.placed around).map Placed.token = fields.tokens := by
  cases fields with
  | empty => rfl
  | last field => simp [Fields.placed, Fields.tokens, field.map_placed]
  | next field separator rest =>
    simp [Fields.placed, Fields.tokens, field.map_placed, rest.map_placed]

theorem Field.map_placed (around : List Enclosure) (field : Field) :
    (field.placed around).map Placed.token = field.tokens := by
  cases field with
  | item value => simp [Field.placed, Field.tokens, value.map_placed]
  | named name value => simp [Field.placed, Field.tokens, value.map_placed]
  | keyed key value => simp [Field.placed, Field.tokens, key.map_placed, value.map_placed]

theorem Block.map_placed (around : List Enclosure) (block : Block) :
    (block.placed around).map Placed.token = block.tokens := by
  cases block with
  | finished => rfl
  | returning semicolon => simp [Block.placed, Block.tokens]
  | returningValues values semicolon => simp [Block.placed, Block.tokens, values.map_placed]
  | next statement rest => simp [Block.placed, Block.tokens, statement.map_placed, rest.map_placed]

theorem Statement.map_placed (around : List Enclosure) (statement : Statement) :
    (statement.placed around).map Placed.token = statement.tokens := by
  cases statement with
  | assign targets values =>
    simp [Statement.placed, Statement.tokens, targets.map_placed, values.map_placed]
  | call inner => simp [Statement.placed, Statement.tokens, inner.map_placed]
  | enclosed body => simp [Statement.placed, Statement.tokens, body.map_placed]
  | whileLoop condition body =>
    simp [Statement.placed, Statement.tokens, condition.map_placed, body.map_placed]
  | repeatLoop body condition =>
    simp [Statement.placed, Statement.tokens, condition.map_placed, body.map_placed]
  | conditional condition body rest =>
    simp [Statement.placed, Statement.tokens, condition.map_placed, body.map_placed,
      rest.map_placed]
  | numericLoop name first limit body =>
    simp [Statement.placed, Statement.tokens, first.map_placed, limit.map_placed, body.map_placed]
  | steppedLoop name first limit step body =>
    simp [Statement.placed, Statement.tokens, first.map_placed, limit.map_placed, step.map_placed,
      body.map_placed]
  | genericLoop name others values body =>
    simp [Statement.placed, Statement.tokens, values.map_placed, body.map_placed]
  | function path parameters body => simp [Statement.placed, Statement.tokens, body.map_placed]
  | localFunction name parameters body => simp [Statement.placed, Statement.tokens, body.map_placed]
  | declareValues first others values =>
    simp [Statement.placed, Statement.tokens, values.map_placed]
  | _ => simp [Statement.placed, Statement.tokens]

theorem Targets.map_placed (around : List Enclosure) (targets : Targets) :
    (targets.placed around).map Placed.token = targets.tokens := by
  cases targets with
  | last target => simp [Targets.placed, Targets.tokens, target.map_placed]
  | next target rest => simp [Targets.placed, Targets.tokens, target.map_placed, rest.map_placed]

theorem Alternatives.map_placed (around : List Enclosure) (alternatives : Alternatives) :
    (alternatives.placed around).map Placed.token = alternatives.tokens := by
  cases alternatives with
  | finished => simp [Alternatives.placed, Alternatives.tokens]
  | otherwise body => simp [Alternatives.placed, Alternatives.tokens, body.map_placed]
  | next condition body rest =>
    simp [Alternatives.placed, Alternatives.tokens, condition.map_placed, body.map_placed,
      rest.map_placed]

end

end Lua

end LogPipeline
