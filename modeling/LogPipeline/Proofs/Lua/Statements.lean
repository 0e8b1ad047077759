import LogPipeline.Proofs.Lua.Enclosing

namespace LogPipeline

namespace Lua

/-!
# Where statements begin

The grammar says of each token of a phrase whether a statement begins with it.  A
statement begins with its first token, a return among them.  Of the tokens of a
label, those behind its first colons are told apart, since the two pairs of colons
look alike.
-/

/-- A placed token, whether a statement begins with it, and whether it stands in a
label behind the first colons. -/
structure Marked extends Placed where
  begins : Bool := false
  inLabel : Bool := false

def unmarked (row : List Placed) : List Marked :=
  row.map fun placed => { toPlaced := placed }

/-- A row with whose first token a statement begins. -/
def beginning : List Marked → List Marked
  | [] => []
  | first :: rest => { first with begins := true } :: rest

def within (around : List Enclosure) (row : List Token) : List Marked :=
  unmarked (plain around row)

def bracketsMarked (around : List Enclosure) (first last : String)
    (inside : List Enclosure → List Marked) : List Marked :=
  unmarked (opening .bracket around (.ofSymbol first)) ++ inside (.bracket :: around) ++
    within around [.ofSymbol last]

def blockMarked (around : List Enclosure) (first : String)
    (inside : List Enclosure → List Marked) : List Marked :=
  unmarked (opening .block around (.ofWord first)) ++ inside (.block :: around)

def bodyMarked (around : List Enclosure) (parameters : Parameters)
    (body : List Enclosure → List Marked) : List Marked :=
  unmarked (opening .bracket around (.ofSymbol "(")) ++
    within (.bracket :: around) parameters.inside ++
    unmarked (opening .block around (.ofSymbol ")")) ++ body (.block :: around) ++
    within around [.ofWord "end"]

def labelMarked (around : List Enclosure) (name : List Char) : List Marked :=
  [{ token := .ofSymbol "::", around := around },
    { token := .ofName name, around := around, inLabel := true },
    { token := .ofSymbol "::", around := around, inLabel := true }]

mutual

/-- The tokens of an expression, each with its marks. -/
def Expression.marked (around : List Enclosure) : Expression → List Marked
  | .closure parameters body =>
    within around [.ofWord "function"] ++ bodyMarked around parameters body.marked
  | .table fields => bracketsMarked around "\x7b" "\x7d" fields.marked
  | .primary inner => inner.marked around
  | .unary operator operand => within around [operator.token] ++ operand.marked around
  | .binary left operator right =>
    left.marked around ++ within around [operator.token] ++ right.marked around
  | lone => within around lone.tokens

def Primary.marked (around : List Enclosure) : Primary → List Marked
  | .place inner => inner.marked around
  | .call inner => inner.marked around
  | .grouped inner => bracketsMarked around "(" ")" inner.marked

def Place.marked (around : List Enclosure) : Place → List Marked
  | .named name => within around [.ofName name]
  | .field table name => table.marked around ++ within around [.ofSymbol ".", .ofName name]
  | .index table key => table.marked around ++ bracketsMarked around "[" "]" key.marked

def Call.marked (around : List Enclosure) : Call → List Marked
  | .function callee arguments => callee.marked around ++ arguments.marked around
  | .method object name arguments =>
    object.marked around ++ within around [.ofSymbol ":", .ofName name] ++ arguments.marked around

def Arguments.marked (around : List Enclosure) : Arguments → List Marked
  | .empty => bracketsMarked around "(" ")" fun _ => []
  | .listed values => bracketsMarked around "(" ")" values.marked
  | .table fields => bracketsMarked around "\x7b" "\x7d" fields.marked
  | .text letters => within around [{ kind := .string, letters := letters }]

def Expressions.marked (around : List Enclosure) : Expressions → List Marked
  | .last value => value.marked around
  | .next value rest =>
    value.marked around ++ within around [.ofSymbol ","] ++ rest.marked around

def Fields.marked (around : List Enclosure) : Fields → List Marked
  | .empty => []
  | .last field => field.marked around
  | .next field separator rest =>
    field.marked around ++ within around [separator.token] ++ rest.marked around

def Field.marked (around : List Enclosure) : Field → List Marked
  | .item value => value.marked around
  | .named name value => within around [.ofName name, .ofSymbol "="] ++ value.marked around
  | .keyed key value =>
    bracketsMarked around "[" "]" key.marked ++ within around [.ofSymbol "="] ++
      value.marked around

def Block.marked (around : List Enclosure) : Block → List Marked
  | .finished => []
  | .returning semicolon =>
    beginning (within around (.ofWord "return" :: semicolonTokens semicolon))
  | .returningValues values semicolon =>
    beginning (within around [.ofWord "return"] ++ values.marked around ++
      within around (semicolonTokens semicolon))
  | .next statement rest => beginning (statement.marked around) ++ rest.marked around

/-- The tokens of a statement, each with its marks, the first as if it began
nothing. -/
def Statement.marked (around : List Enclosure) : Statement → List Marked
  | .assign targets values =>
    targets.marked around ++ within around [.ofSymbol "="] ++ values.marked around
  | .call inner => inner.marked around
  | .label name => labelMarked around name
  | .enclosed body => blockMarked around "do" body.marked ++ within around [.ofWord "end"]
  | .whileLoop condition body =>
    within around [.ofWord "while"] ++ condition.marked around ++
      blockMarked around "do" body.marked ++ within around [.ofWord "end"]
  | .repeatLoop body condition =>
    blockMarked around "repeat" body.marked ++ within around [.ofWord "until"] ++
      condition.marked around
  | .conditional condition body rest =>
    within around [.ofWord "if"] ++ condition.marked around ++
      blockMarked around "then" body.marked ++ rest.marked around
  | .numericLoop name first limit body =>
    within around [.ofWord "for", .ofName name, .ofSymbol "="] ++ first.marked around ++
      within around [.ofSymbol ","] ++ limit.marked around ++
      blockMarked around "do" body.marked ++ within around [.ofWord "end"]
  | .steppedLoop name first limit step body =>
    within around [.ofWord "for", .ofName name, .ofSymbol "="] ++ first.marked around ++
      within around [.ofSymbol ","] ++ limit.marked around ++ within around [.ofSymbol ","] ++
      step.marked around ++ blockMarked around "do" body.marked ++
      within around [.ofWord "end"]
  | .genericLoop name others values body =>
    within around (.ofWord "for" :: nameTokens (name :: others) ++ [.ofWord "in"]) ++
      values.marked around ++ blockMarked around "do" body.marked ++
      within around [.ofWord "end"]
  | .function path parameters body =>
    within around (.ofWord "function" :: path.tokens) ++
      bodyMarked around parameters body.marked
  | .localFunction name parameters body =>
    within around [.ofWord "local", .ofWord "function", .ofName name] ++
      bodyMarked around parameters body.marked
  | .declareValues first others values =>
    within around (.ofWord "local" :: commaSeparated ((first :: others).map Declared.tokens) ++
      [.ofSymbol "="]) ++ values.marked around
  | lone => within around lone.tokens

def Targets.marked (around : List Enclosure) : Targets → List Marked
  | .last target => target.marked around
  | .next target rest =>
    target.marked around ++ within around [.ofSymbol ","] ++ rest.marked around

def Alternatives.marked (around : List Enclosure) : Alternatives → List Marked
  | .finished => within around [.ofWord "end"]
  | .otherwise body =>
    blockMarked around "else" body.marked ++ within around [.ofWord "end"]
  | .next condition body rest =>
    within around [.ofWord "elseif"] ++ condition.marked around ++
      blockMarked around "then" body.marked ++ rest.marked around

end

/-! ## The marks are those of the placed tokens -/

section Rows

variable (around : List Enclosure)

@[simp] theorem toPlaced_unmarked (row : List Placed) :
    (unmarked row).map Marked.toPlaced = row := by
  simp [unmarked, Function.comp_def]

@[simp] theorem toPlaced_beginning (row : List Marked) :
    (beginning row).map Marked.toPlaced = row.map Marked.toPlaced := by
  cases row <;> rfl

@[simp] theorem toPlaced_within (row : List Token) :
    (within around row).map Marked.toPlaced = plain around row :=
  toPlaced_unmarked _

@[simp] theorem toPlaced_bracketsMarked (first last : String)
    (inside : List Enclosure → List Marked) :
    (bracketsMarked around first last inside).map Marked.toPlaced =
      inBrackets around first last fun around => (inside around).map Marked.toPlaced := by
  simp [bracketsMarked, inBrackets]

@[simp] theorem toPlaced_blockMarked (first : String) (inside : List Enclosure → List Marked) :
    (blockMarked around first inside).map Marked.toPlaced =
      inBlock around first fun around => (inside around).map Marked.toPlaced := by
  simp [blockMarked, inBlock]

@[simp] theorem toPlaced_bodyMarked (parameters : Parameters)
    (body : List Enclosure → List Marked) :
    (bodyMarked around parameters body).map Marked.toPlaced =
      bodyPlaced around parameters fun around => (body around).map Marked.toPlaced := by
  simp [bodyMarked, bodyPlaced]

theorem within_append (row rest : List Token) :
    within around (row ++ rest) = within around row ++ within around rest := by
  simp [within, unmarked, plain]

theorem within_cons (token : Token) (row : List Token) :
    within around (token :: row) = within around [token] ++ within around row := rfl

end Rows

mutual

theorem Expression.toPlaced_marked (around : List Enclosure) (expression : Expression) :
    (expression.marked around).map Marked.toPlaced = expression.placed around := by
  cases expression with
  | closure parameters body =>
    simp [Expression.marked, Expression.placed, body.toPlaced_marked]
  | table fields => simp [Expression.marked, Expression.placed, fields.toPlaced_marked]
  | primary inner => simp [Expression.marked, Expression.placed, inner.toPlaced_marked]
  | unary operator operand =>
    simp [Expression.marked, Expression.placed, operand.toPlaced_marked]
  | binary left operator right =>
    simp [Expression.marked, Expression.placed, left.toPlaced_marked, right.toPlaced_marked]
  | _ => simp [Expression.marked, Expression.placed]

theorem Primary.toPlaced_marked (around : List Enclosure) (primary : Primary) :
    (primary.marked around).map Marked.toPlaced = primary.placed around := by
  cases primary with
  | place inner => simp [Primary.marked, Primary.placed, inner.toPlaced_marked]
  | call inner => simp [Primary.marked, Primary.placed, inner.toPlaced_marked]
  | grouped inner => simp [Primary.marked, Primary.placed, inner.toPlaced_marked]

theorem Place.toPlaced_marked (around : List Enclosure) (place : Place) :
    (place.marked around).map Marked.toPlaced = place.placed around := by
  cases place with
  | named name => simp [Place.marked, Place.placed]
  | field table name => simp [Place.marked, Place.placed, table.toPlaced_marked]
  | index table key =>
    simp [Place.marked, Place.placed, table.toPlaced_marked, key.toPlaced_marked]

theorem Call.toPlaced_marked (around : List Enclosure) (call : Call) :
    (call.marked around).map Marked.toPlaced = call.placed around := by
  cases call with
  | function callee arguments =>
    simp [Call.marked, Call.placed, callee.toPlaced_marked, arguments.toPlaced_marked]
  | method object name arguments =>
    simp [Call.marked, Call.placed, object.toPlaced_marked, arguments.toPlaced_marked]

theorem Arguments.toPlaced_marked (around : List Enclosure) (arguments : Arguments) :
    (arguments.marked around).map Marked.toPlaced = arguments.placed around := by
  cases arguments with
  | empty => simp [Arguments.marked, Arguments.placed]
  | listed values => simp [Arguments.marked, Arguments.placed, values.toPlaced_marked]
  | table fields => simp [Arguments.marked, Arguments.placed, fields.toPlaced_marked]
  | text letters => simp [Arguments.marked, Arguments.placed]

theorem Expressions.toPlaced_marked (around : List Enclosure) (values : Expressions) :
    (values.marked around).map Marked.toPlaced = values.placed around := by
  cases values with
  | last value => simp [Expressions.marked, Expressions.placed, value.toPlaced_marked]
  | next value rest =>
    simp [Expressions.marked, Expressions.placed, value.toPlaced_marked, rest.toPlaced_marked]

theorem Fields.toPlaced_marked (around : List Enclosure) (fields : Fields) :
    (fields.marked around).map Marked.toPlaced = fields.placed around := by
  cases fields with
  | empty => rfl
  | last field => simp [Fields.marked, Fields.placed, field.toPlaced_marked]
  | next field separator rest =>
    simp [Fields.marked, Fields.placed, field.toPlaced_marked, rest.toPlaced_marked]

theorem Field.toPlaced_marked (around : List Enclosure) (field : Field) :
    (field.marked around).map Marked.toPlaced = field.placed around := by
  cases field with
  | item value => simp [Field.marked, Field.placed, value.toPlaced_marked]
  | named name value => simp [Field.marked, Field.placed, value.toPlaced_marked]
  | keyed key value =>
    simp [Field.marked, Field.placed, key.toPlaced_marked, value.toPlaced_marked]

/-- Without their marks the tokens of a block are its placed tokens. -/
theorem Block.toPlaced_marked (around : List Enclosure) (block : Block) :
    (block.marked around).map Marked.toPlaced = block.placed around := by
  cases block with
  | finished => rfl
  | returning semicolon => simp [Block.marked, Block.placed]
  | returningValues values semicolon =>
    simp [Block.marked, Block.placed, values.toPlaced_marked]
  | next statement rest =>
    simp [Block.marked, Block.placed, statement.toPlaced_marked, rest.toPlaced_marked]

theorem Statement.toPlaced_marked (around : List Enclosure) (statement : Statement) :
    (statement.marked around).map Marked.toPlaced = statement.placed around := by
  cases statement with
  | assign targets values =>
    simp [Statement.marked, Statement.placed, targets.toPlaced_marked, values.toPlaced_marked]
  | call inner => simp [Statement.marked, Statement.placed, inner.toPlaced_marked]
  | label name => rfl
  | enclosed body => simp [Statement.marked, Statement.placed, body.toPlaced_marked]
  | whileLoop condition body =>
    simp [Statement.marked, Statement.placed, condition.toPlaced_marked, body.toPlaced_marked]
  | repeatLoop body condition =>
    simp [Statement.marked, Statement.placed, condition.toPlaced_marked, body.toPlaced_marked]
  | conditional condition body rest =>
    simp [Statement.marked, Statement.placed, condition.toPlaced_marked, body.toPlaced_marked,
      rest.toPlaced_marked]
  | numericLoop name first limit body =>
    simp [Statement.marked, Statement.placed, first.toPlaced_marked, limit.toPlaced_marked,
      body.toPlaced_marked]
  | steppedLoop name first limit step body =>
    simp [Statement.marked, Statement.placed, first.toPlaced_marked, limit.toPlaced_marked,
      step.toPlaced_marked, body.toPlaced_marked]
  | genericLoop name others values body =>
    simp [Statement.marked, Statement.placed, values.toPlaced_marked, body.toPlaced_marked]
  | function path parameters body =>
    simp [Statement.marked, Statement.placed, body.toPlaced_marked]
  | localFunction name parameters body =>
    simp [Statement.marked, Statement.placed, body.toPlaced_marked]
  | declareValues first others values =>
    simp [Statement.marked, Statement.placed, values.toPlaced_marked]
  | _ => simp [Statement.marked, Statement.placed]

theorem Targets.toPlaced_marked (around : List Enclosure) (targets : Targets) :
    (targets.marked around).map Marked.toPlaced = targets.placed around := by
  cases targets with
  | last target => simp [Targets.marked, Targets.placed, target.toPlaced_marked]
  | next target rest =>
    simp [Targets.marked, Targets.placed, target.toPlaced_marked, rest.toPlaced_marked]

theorem Alternatives.toPlaced_marked (around : List Enclosure) (alternatives : Alternatives) :
    (alternatives.marked around).map Marked.toPlaced = alternatives.placed around := by
  cases alternatives with
  | finished => simp [Alternatives.marked, Alternatives.placed]
  | otherwise body => simp [Alternatives.marked, Alternatives.placed, body.toPlaced_marked]
  | next condition body rest =>
    simp [Alternatives.marked, Alternatives.placed, condition.toPlaced_marked,
      body.toPlaced_marked, rest.toPlaced_marked]

end

end Lua

end LogPipeline
