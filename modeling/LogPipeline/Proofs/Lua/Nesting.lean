import LogPipeline.Proofs.Lua.Enclosing
import LogPipeline.Proofs.Lua.Spreading

namespace LogPipeline

namespace Lua

/-!
# The blocks of a layout are those of the grammar

A layout knows what is open from words and brackets alone.  For the tokens of a
block of statements it knows what the grammar says, behind each token: which
blocks are open, in how many brackets each stands, and how many brackets are
open.  So every line that it begins is indented by two spaces for each block
that encloses the token there.
-/

/-- For each open block, innermost first, in how many brackets it stands. -/
def blockDepths : List Enclosure → List Nat
  | [] => []
  | .block :: outer => outer.count .bracket :: blockDepths outer
  | .bracket :: outer => blockDepths outer

theorem length_blockDepths (around : List Enclosure) :
    (blockDepths around).length = around.count .block := by
  induction around with
  | nil => rfl
  | cons enclosure outer inductionHypothesis =>
    cases enclosure <;> simp [blockDepths, inductionHypothesis]

/-! ## What a layout knows to be open -/

/-- What a layout knows to be open, without what is written. -/
structure Nesting where
  blocks : List Nat := []
  parameters : List Nat := []
  depth : Nat := 0
  functionPending : Bool := false
  inLabel : Bool := false

namespace Nesting

/-- A layout that knows this and has nothing written. -/
def layout (nesting : Nesting) : Layout where
  blocks := nesting.blocks
  parameters := nesting.parameters
  depth := nesting.depth
  functionPending := nesting.functionPending
  inLabel := nesting.inLabel

end Nesting

/-- What a layout knows to be open. -/
def Layout.nesting (layout : Layout) : Nesting where
  blocks := layout.blocks
  parameters := layout.parameters
  depth := layout.depth
  functionPending := layout.functionPending
  inLabel := layout.inLabel

namespace Nesting

@[simp] theorem nesting_layout (nesting : Nesting) : nesting.layout.nesting = nesting := rfl

/-- What is open behind one more token. -/
def push (nesting : Nesting) (token : Token) : Nesting :=
  ((nesting.layout.closeBlock token).note token).nesting

/-- What is open where some brackets and blocks are, and nothing else. -/
def inside (around : List Enclosure) : Nesting where
  blocks := blockDepths around
  depth := around.count .bracket

/-- The blocks and brackets that are known to be open are given ones. -/
def Shows (nesting : Nesting) (around : List Enclosure) : Prop :=
  nesting.blocks = blockDepths around ∧ nesting.depth = around.count .bracket

end Nesting

namespace Layout

theorem blocks_closeBlock (layout : Layout) (token : Token) :
    (layout.closeBlock token).blocks = (layout.nesting.layout.closeBlock token).blocks := by
  unfold closeBlock
  split <;> rfl

theorem nesting_closeBlock {first second : Layout} (same : first.nesting = second.nesting)
    (token : Token) : (first.closeBlock token).nesting = (second.closeBlock token).nesting := by
  have sameBlocks : first.blocks = second.blocks := congrArg Nesting.blocks same
  unfold closeBlock
  split
  · exact congrArg (fun nesting : Nesting => { nesting with blocks := nesting.blocks.tail }) same
  · exact same

theorem nesting_openBlock {first second : Layout} (same : first.nesting = second.nesting) :
    first.openBlock.nesting = second.openBlock.nesting :=
  congrArg (fun nesting : Nesting => { nesting with blocks := nesting.depth :: nesting.blocks })
    same

theorem nesting_openBracket {first second : Layout} (same : first.nesting = second.nesting)
    (round : Bool) :
    (first.openBracket round).nesting = (second.openBracket round).nesting := by
  have samePending : first.functionPending = second.functionPending :=
    congrArg Nesting.functionPending same
  unfold openBracket
  rw [samePending]
  split
  · exact congrArg (fun nesting : Nesting =>
      { nesting with
        depth := nesting.depth + 1
        parameters := (nesting.depth + 1) :: nesting.parameters
        functionPending := false }) same
  · exact congrArg (fun nesting : Nesting =>
      { nesting with
        depth := nesting.depth + 1
        functionPending := second.functionPending }) same

theorem nesting_closeBracket {first second : Layout} (same : first.nesting = second.nesting)
    (round : Bool) :
    (first.closeBracket round).nesting = (second.closeBracket round).nesting := by
  have sameParameters : first.parameters = second.parameters := congrArg Nesting.parameters same
  have sameDepth : first.depth = second.depth := congrArg Nesting.depth same
  unfold closeBracket
  rw [sameParameters, sameDepth]
  split
  · exact congrArg (fun nesting : Nesting =>
      { nesting with
        depth := second.depth - 1
        parameters := second.parameters.tail
        blocks := (second.depth - 1) :: nesting.blocks }) same
  · exact congrArg (fun nesting : Nesting =>
      { nesting with depth := second.depth - 1, parameters := second.parameters }) same

/-- What a token opens and closes depends on what is open only. -/
theorem nesting_note {first second : Layout} (same : first.nesting = second.nesting)
    (token : Token) : (first.note token).nesting = (second.note token).nesting := by
  unfold note
  split
  · exact nesting_openBlock same
  split
  · exact congrArg (fun nesting : Nesting => { nesting with functionPending := true }) same
  split
  · exact nesting_openBracket same true
  split
  · exact nesting_closeBracket same true
  split
  · exact nesting_openBracket same false
  split
  · exact nesting_closeBracket same false
  split
  · exact congrArg (fun nesting : Nesting => { nesting with inLabel := !nesting.inLabel }) same
  · exact same

theorem nesting_write (layout : Layout) (before : Option Token) (token : Token) :
    (layout.write before token).nesting = layout.nesting := by
  unfold write
  split
  · rfl
  · split <;> rfl

theorem nesting_push (layout : Layout) (before : Option Token) (token : Token) :
    (layout.push before token).nesting = layout.nesting.push token := by
  have same : layout.nesting = layout.nesting.layout.nesting := rfl
  have written : ({ (layout.closeBlock token).write before token with
      blockOpened := false } : Layout).nesting =
      (layout.nesting.layout.closeBlock token).nesting :=
    (nesting_write _ before token).trans (nesting_closeBlock same token)
  exact nesting_note written token

theorem nesting_pushAll (layout : Layout) (before : Option Token) (read : List Token) :
    (layout.pushAll before read).nesting = read.foldl Nesting.push layout.nesting := by
  induction read generalizing layout before with
  | nil => rfl
  | cons token rest inductionHypothesis =>
    rw [pushAll, inductionHypothesis, nesting_push, List.foldl_cons]

end Layout

namespace Nesting

/-! ## Single tokens -/

def isQuiet (token : Token) : Bool :=
  !(token.isAnyWord ["then", "do", "else", "repeat", "function", "end", "elseif", "until"] ||
    token.isAnySymbol ["(", ")", "[", "]", "\x7b", "\x7d", "::"])

theorem closeBlock_of_isQuiet {token : Token} (quiet : isQuiet token = true) (layout : Layout) :
    layout.closeBlock token = layout := by
  simp only [isQuiet, Token.isAnyWord, List.any_cons, Bool.not_eq_true', Bool.or_eq_false_iff]
    at quiet
  simp [Layout.closeBlock, closingWords, Token.isAnyWord, quiet]

theorem note_of_isQuiet {token : Token} (quiet : isQuiet token = true) (layout : Layout) :
    layout.note token = layout := by
  simp only [isQuiet, Token.isAnyWord, Token.isAnySymbol, List.any_cons, Bool.not_eq_true',
    Bool.or_eq_false_iff] at quiet
  simp [Layout.note, Token.isAnyWord, Token.isAnySymbol, quiet]

theorem push_of_isQuiet {token : Token} (quiet : isQuiet token = true) (nesting : Nesting) :
    nesting.push token = nesting := by
  rw [push, closeBlock_of_isQuiet quiet, note_of_isQuiet quiet, nesting_layout]

def Quiet (row : List Token) : Prop :=
  ∀ token ∈ row, isQuiet token = true

@[simp] theorem quiet_nil : Quiet [] := by
  intro token member
  cases member

@[simp] theorem quiet_cons {token : Token} {row : List Token} :
    Quiet (token :: row) ↔ isQuiet token = true ∧ Quiet row :=
  List.forall_mem_cons

@[simp] theorem quiet_append {row rest : List Token} :
    Quiet (row ++ rest) ↔ Quiet row ∧ Quiet rest :=
  List.forall_mem_append

theorem quiet_of_all {row : List Token} (all : row.all isQuiet = true) : Quiet row :=
  List.all_eq_true.mp all

theorem quiet_commaSeparated {rows : List (List Token)} (quiet : ∀ row ∈ rows, Quiet row) :
    Quiet (commaSeparated rows) := by
  induction rows with
  | nil => exact quiet_nil
  | cons row rows inductionHypothesis =>
    rw [List.forall_mem_cons] at quiet
    have others := inductionHypothesis quiet.2
    rcases List.eq_nil_or_concat rows with rfl | ⟨front, last, rfl⟩
    · rw [commaSeparated, List.intercalate_singleton]
      exact quiet.1
    · rw [commaSeparated, List.intercalate_cons_of_ne_nil (by simp), quiet_append, quiet_append]
      exact ⟨⟨quiet.1, quiet_of_all rfl⟩, others⟩

theorem quiet_inside (parameters : Parameters) : Quiet parameters.inside := by
  apply quiet_commaSeparated
  rw [List.forall_mem_append]
  constructor
  · intro row member
    rcases List.mem_map.mp member with ⟨name, -, rfl⟩
    exact quiet_of_all rfl
  · split
    · simp only [List.forall_mem_singleton]
      exact quiet_of_all rfl
    · simp

theorem quiet_path (path : FunctionPath) : Quiet path.tokens := by
  have fields : Quiet (path.fields.flatMap fun field => [.ofSymbol ".", .ofName field]) := by
    intro token member
    rcases List.mem_flatMap.mp member with ⟨field, -, inside⟩
    have quiet : Quiet [.ofSymbol ".", .ofName field] := quiet_of_all rfl
    exact quiet token inside
  rw [FunctionPath.tokens, quiet_append, quiet_cons]
  refine ⟨⟨rfl, fields⟩, ?_⟩
  split
  · exact quiet_of_all rfl
  · exact quiet_nil

theorem quiet_declared (declared : Declared) : Quiet declared.tokens := by
  rw [Declared.tokens, quiet_cons]
  refine ⟨rfl, ?_⟩
  split
  · exact quiet_of_all rfl
  · exact quiet_nil

theorem quiet_declarations (first : Declared) (others : List Declared) :
    Quiet (commaSeparated ((first :: others).map Declared.tokens)) := by
  apply quiet_commaSeparated
  intro row member
  rcases List.mem_map.mp member with ⟨declared, -, rfl⟩
  exact quiet_declared declared

theorem quiet_names (names : List (List Char)) : Quiet (nameTokens names) := by
  apply quiet_commaSeparated
  intro row member
  rcases List.mem_map.mp member with ⟨name, -, rfl⟩
  exact quiet_of_all rfl

theorem isQuiet_unary (operator : UnaryOperator) : isQuiet operator.token = true := by
  cases operator <;> rfl

theorem isQuiet_binary (operator : BinaryOperator) : isQuiet operator.token = true := by
  cases operator <;> rfl

theorem eq_of_mem_three {first second third word : String}
    (member : word ∈ [first, second, third]) : word = first ∨ word = second ∨ word = third := by
  simpa using member

theorem push_opening {word : String} (opens : word ∈ ["then", "do", "repeat"])
    (around : List Enclosure) :
    (inside around).push (.ofWord word) = inside (.block :: around) := by
  rcases eq_of_mem_three opens with rfl | rfl | rfl <;> rfl

theorem push_else (around : List Enclosure) :
    (inside (.block :: around)).push (.ofWord "else") = inside (.block :: around) := by
  rfl

theorem push_closing {word : String} (closes : word ∈ ["end", "elseif", "until"])
    (around : List Enclosure) :
    (inside (.block :: around)).push (.ofWord word) = inside around := by
  rcases eq_of_mem_three closes with rfl | rfl | rfl <;> rfl

theorem inside_bracket (around : List Enclosure) :
    inside (.bracket :: around) = { inside around with depth := (inside around).depth + 1 } := by
  simp [inside, blockDepths]

theorem push_bracket {symbol : String} (opens : symbol ∈ ["(", "[", "\x7b"])
    (around : List Enclosure) :
    (inside around).push (.ofSymbol symbol) = inside (.bracket :: around) := by
  rw [inside_bracket]
  rcases eq_of_mem_three opens with rfl | rfl | rfl <;> rfl

theorem push_closingBracket {symbol : String} (closes : symbol ∈ [")", "]", "\x7d"])
    (around : List Enclosure) :
    (inside (.bracket :: around)).push (.ofSymbol symbol) = inside around := by
  rw [inside_bracket]
  rcases eq_of_mem_three closes with rfl | rfl | rfl <;> rfl

/-! ## Rows of tokens -/

/-- Before a token the blocks around it are known once it has closed one, and
behind it all that is open there. -/
structure Knows (nesting : Nesting) (placed : Placed) : Prop where
  blocksAround :
    (nesting.layout.closeBlock placed.token).blocks = blockDepths placed.around
  behind : (nesting.push placed.token).Shows placed.behind

/-- Going through a row leads from what is open before it to what is open behind
it, and what encloses each token is known on the way. -/
inductive Tracks : Nesting → List Placed → Nesting → Prop
  | nil {nesting : Nesting} : Tracks nesting [] nesting
  | cons {nesting finish : Nesting} {placed : Placed} {rest : List Placed} :
      nesting.Knows placed → Tracks (nesting.push placed.token) rest finish →
        Tracks nesting (placed :: rest) finish

variable {start middle finish : Nesting} {row rest : List Placed} {around : List Enclosure}

theorem Tracks.append (first : Tracks start row middle) (second : Tracks middle rest finish) :
    Tracks start (row ++ rest) finish := by
  induction first with
  | nil => exact second
  | cons knows _ inductionHypothesis => exact .cons knows (inductionHypothesis second)

theorem Tracks.foldl_push (tracks : Tracks start row finish) :
    (row.map Placed.token).foldl push start = finish := by
  induction tracks with
  | nil => rfl
  | cons _ _ inductionHypothesis => exact inductionHypothesis

/-- Behind each token of a row all that is open there is known. -/
theorem Tracks.shows {front back : List Placed} {placed : Placed}
    (tracks : Tracks start (front ++ placed :: back) finish) :
    (((front ++ [placed]).map Placed.token).foldl push start).Shows placed.behind := by
  induction front generalizing start with
  | nil =>
    cases tracks with
    | cons knows _ => exact knows.behind
  | cons first front inductionHypothesis =>
    cases tracks with
    | cons _ others => exact inductionHypothesis others

theorem shows_inside (around : List Enclosure) : (inside around).Shows around :=
  ⟨rfl, rfl⟩

theorem tracks_plain (shows : start.Shows around) {tokens : List Token} (quiet : Quiet tokens) :
    Tracks start (plain around tokens) start := by
  induction tokens with
  | nil => exact .nil
  | cons token tokens inductionHypothesis =>
    rw [quiet_cons] at quiet
    have pushed := push_of_isQuiet quiet.1 start
    refine .cons ⟨?_, ?_⟩ ?_
    · rw [closeBlock_of_isQuiet quiet.1]
      exact shows.1
    · rw [pushed]
      exact shows
    · rw [pushed]
      exact inductionHypothesis quiet.2

theorem tracks_inside {tokens : List Token} (quiet : Quiet tokens) :
    Tracks (inside around) (plain around tokens) (inside around) :=
  tracks_plain (shows_inside around) quiet

/-- A token that leads to what is open behind it. -/
theorem tracks_single {placed : Placed}
    (closed : (start.layout.closeBlock placed.token).blocks = blockDepths placed.around)
    (pushed : start.push placed.token = finish) (shows : finish.Shows placed.behind) :
    Tracks start [placed] finish := by
  rw [← pushed] at shows ⊢
  exact .cons ⟨closed, shows⟩ .nil

theorem tracks_closing {word : String} (closes : word ∈ ["end", "elseif", "until"]) :
    Tracks (inside (.block :: around)) (plain around [.ofWord word]) (inside around) := by
  refine tracks_single ?_ (push_closing closes around) (shows_inside around)
  rcases eq_of_mem_three closes with rfl | rfl | rfl <;> rfl

theorem tracks_inBlock {word : String} (opens : word ∈ ["then", "do", "repeat"])
    {body : List Enclosure → List Placed}
    (tracks : Tracks (inside (.block :: around)) (body (.block :: around))
      (inside (.block :: around))) :
    Tracks (inside around) (inBlock around word body) (inside (.block :: around)) := by
  refine (tracks_single ?_ (push_opening opens around) (shows_inside _)).append tracks
  rcases eq_of_mem_three opens with rfl | rfl | rfl <;> rfl

theorem tracks_else {body : List Enclosure → List Placed}
    (tracks : Tracks (inside (.block :: around)) (body (.block :: around))
      (inside (.block :: around))) :
    Tracks (inside (.block :: around)) (inBlock around "else" body)
      (inside (.block :: around)) :=
  (tracks_single rfl (push_else around) (shows_inside _)).append tracks

theorem tracks_inBrackets {first last : String} (opens : first ∈ ["(", "[", "\x7b"])
    (closes : last ∈ [")", "]", "\x7d"]) {within : List Enclosure → List Placed}
    (tracks : Tracks (inside (.bracket :: around)) (within (.bracket :: around))
      (inside (.bracket :: around))) :
    Tracks (inside around) (inBrackets around first last within) (inside around) := by
  have opened : Tracks (inside around) (opening .bracket around (.ofSymbol first))
      (inside (.bracket :: around)) := by
    refine tracks_single ?_ (push_bracket opens around) (shows_inside _)
    rfl
  have closed : Tracks (inside (.bracket :: around)) (plain around [.ofSymbol last])
      (inside around) := by
    refine tracks_single ?_ (push_closingBracket closes around) (shows_inside around)
    rfl
  exact opened
    |>.append tracks
    |>.append closed

/-! ## Functions and labels -/

def announced (around : List Enclosure) : Nesting :=
  { inside around with functionPending := true }

def inParameters (around : List Enclosure) : Nesting :=
  { inside (.bracket :: around) with parameters := [(inside (.bracket :: around)).depth] }

def inLabelName (around : List Enclosure) : Nesting :=
  { inside around with inLabel := true }

theorem shows_announced (around : List Enclosure) : (announced around).Shows around :=
  ⟨rfl, rfl⟩

theorem shows_inParameters (around : List Enclosure) :
    (inParameters around).Shows (.bracket :: around) :=
  ⟨rfl, rfl⟩

theorem shows_inLabelName (around : List Enclosure) : (inLabelName around).Shows around :=
  ⟨rfl, rfl⟩

theorem push_openingParameters (around : List Enclosure) :
    (announced around).push (.ofSymbol "(") = inParameters around := by
  rw [inParameters, inside_bracket]
  rfl

/-- The bracket that closes the parameters of a function opens its body. -/
theorem push_closingParameters (around : List Enclosure) :
    (inParameters around).push (.ofSymbol ")") = inside (.block :: around) := by
  rw [inParameters, inside_bracket]
  exact congrArg Layout.nesting (if_pos (decide_eq_true rfl))

/-- What stands before the parameters of a function. -/
theorem tracks_header {front names : List Token} (quietFront : Quiet front)
    (quietNames : Quiet names) :
    Tracks (inside around) (plain around (front ++ .ofWord "function" :: names))
      (announced around) := by
  have word : Tracks (inside around) (plain around [.ofWord "function"]) (announced around) :=
    tracks_single rfl rfl (shows_announced around)
  have path := tracks_plain (shows_announced around) quietNames
  have whole := (tracks_inside quietFront).append (word.append path)
  rwa [plain, plain, plain, ← List.map_append, ← List.map_append] at whole

/-- A function from its parameters to its end. -/
theorem tracks_bodyPlaced (parameters : Parameters) {body : List Enclosure → List Placed}
    (tracks : Tracks (inside (.block :: around)) (body (.block :: around))
      (inside (.block :: around))) :
    Tracks (announced around) (bodyPlaced around parameters body) (inside around) := by
  have opened : Tracks (announced around) (opening .bracket around (.ofSymbol "("))
      (inParameters around) :=
    tracks_single rfl (push_openingParameters around) (shows_inParameters around)
  have names : Tracks (inParameters around) (plain (.bracket :: around) parameters.inside)
      (inParameters around) :=
    tracks_plain (shows_inParameters around) (quiet_inside parameters)
  have closed : Tracks (inParameters around) (opening .block around (.ofSymbol ")"))
      (inside (.block :: around)) :=
    tracks_single rfl (push_closingParameters around) (shows_inside (.block :: around))
  exact opened
    |>.append names
    |>.append closed
    |>.append tracks
    |>.append (tracks_closing (by decide))

/-- A label: its second pair of colons ends what the first began. -/
theorem tracks_label (name : List Char) :
    Tracks (inside around) (plain around [.ofSymbol "::", .ofName name, .ofSymbol "::"])
      (inside around) := by
  have begun : Tracks (inside around) (plain around [.ofSymbol "::"]) (inLabelName around) :=
    tracks_single rfl rfl (shows_inLabelName around)
  have named : Tracks (inLabelName around) (plain around [.ofName name]) (inLabelName around) :=
    tracks_plain (shows_inLabelName around) (quiet_of_all rfl)
  have ended : Tracks (inLabelName around) (plain around [.ofSymbol "::"]) (inside around) :=
    tracks_single rfl rfl (shows_inside around)
  exact begun
    |>.append named
    |>.append ended

end Nesting

/-! ## Phrases -/

open Nesting

mutual

/-- Behind an expression the same is open as before it. -/
theorem Expression.tracks (around : List Enclosure) (expression : Expression) :
    Tracks (inside around) (expression.placed around) (inside around) := by
  cases expression with
  | truth value => cases value <;> exact tracks_inside (quiet_of_all rfl)
  | closure parameters body =>
    exact tracks_header quiet_nil quiet_nil
      |>.append (tracks_bodyPlaced parameters (body.tracks _))
  | table fields => exact tracks_inBrackets (by decide) (by decide) (fields.tracks _)
  | primary inner => exact inner.tracks around
  | unary operator operand =>
    have sign : Quiet [operator.token] := quiet_cons.mpr ⟨isQuiet_unary operator, quiet_nil⟩
    exact tracks_inside sign
      |>.append (operand.tracks around)
  | binary left operator right =>
    have sign : Quiet [operator.token] := quiet_cons.mpr ⟨isQuiet_binary operator, quiet_nil⟩
    exact left.tracks around
      |>.append (tracks_inside sign)
      |>.append (right.tracks around)
  | _ => exact tracks_inside (quiet_of_all rfl)

theorem Primary.tracks (around : List Enclosure) (primary : Primary) :
    Tracks (inside around) (primary.placed around) (inside around) := by
  cases primary with
  | place inner => exact inner.tracks around
  | call inner => exact inner.tracks around
  | grouped inner =>
    rw [Primary.placed]
    exact tracks_inBrackets (by decide) (by decide) (inner.tracks _)

theorem Place.tracks (around : List Enclosure) (place : Place) :
    Tracks (inside around) (place.placed around) (inside around) := by
  cases place with
  | named name => exact tracks_inside (quiet_of_all rfl)
  | field table name =>
    exact table.tracks around
      |>.append (tracks_inside (quiet_of_all rfl))
  | index table key =>
    exact table.tracks around
      |>.append (tracks_inBrackets (by decide) (by decide) (key.tracks _))

theorem Call.tracks (around : List Enclosure) (call : Call) :
    Tracks (inside around) (call.placed around) (inside around) := by
  cases call with
  | function callee arguments =>
    exact callee.tracks around
      |>.append (arguments.tracks around)
  | method object name arguments =>
    exact object.tracks around
      |>.append (tracks_inside (quiet_of_all rfl))
      |>.append (arguments.tracks around)

theorem Arguments.tracks (around : List Enclosure) (arguments : Arguments) :
    Tracks (inside around) (arguments.placed around) (inside around) := by
  cases arguments with
  | empty =>
    rw [Arguments.placed]
    exact tracks_inBrackets (by decide) (by decide) .nil
  | listed values =>
    rw [Arguments.placed]
    exact tracks_inBrackets (by decide) (by decide) (values.tracks _)
  | table fields =>
    rw [Arguments.placed]
    exact tracks_inBrackets (by decide) (by decide) (fields.tracks _)
  | text letters => exact tracks_inside (quiet_of_all rfl)

theorem Expressions.tracks (around : List Enclosure) (values : Expressions) :
    Tracks (inside around) (values.placed around) (inside around) := by
  cases values with
  | last value => exact value.tracks around
  | next value rest =>
    exact value.tracks around
      |>.append (tracks_inside (quiet_of_all rfl))
      |>.append (rest.tracks around)

theorem Fields.tracks (around : List Enclosure) (fields : Fields) :
    Tracks (inside around) (fields.placed around) (inside around) := by
  cases fields with
  | empty => exact .nil
  | last field => exact field.tracks around
  | next field separator rest =>
    have separated : Quiet [separator.token] := by cases separator <;> exact quiet_of_all rfl
    exact field.tracks around
      |>.append (tracks_inside separated)
      |>.append (rest.tracks around)

theorem Field.tracks (around : List Enclosure) (field : Field) :
    Tracks (inside around) (field.placed around) (inside around) := by
  cases field with
  | item value => exact value.tracks around
  | named name value =>
    exact tracks_inside (quiet_of_all rfl)
      |>.append (value.tracks around)
  | keyed key value =>
    exact tracks_inBrackets (by decide) (by decide) (key.tracks _)
      |>.append (tracks_inside (quiet_of_all rfl))
      |>.append (value.tracks around)

/-- Behind a block of statements the same is open as before it. -/
theorem Block.tracks (around : List Enclosure) (block : Block) :
    Tracks (inside around) (block.placed around) (inside around) := by
  cases block with
  | finished => exact .nil
  | returning semicolon => cases semicolon <;> exact tracks_inside (quiet_of_all rfl)
  | returningValues values semicolon =>
    have ended : Quiet (semicolonTokens semicolon) := by
      cases semicolon <;> exact quiet_of_all rfl
    exact tracks_inside (quiet_of_all rfl)
      |>.append (values.tracks around)
      |>.append (tracks_inside ended)
  | next statement rest =>
    exact statement.tracks around
      |>.append (rest.tracks around)

theorem Statement.tracks (around : List Enclosure) (statement : Statement) :
    Tracks (inside around) (statement.placed around) (inside around) := by
  cases statement with
  | assign targets values =>
    exact targets.tracks around
      |>.append (tracks_inside (quiet_of_all rfl))
      |>.append (values.tracks around)
  | call inner => exact inner.tracks around
  | label name => exact tracks_label name
  | enclosed body =>
    exact tracks_inBlock (by decide) (body.tracks _)
      |>.append (tracks_closing (by decide))
  | whileLoop condition body =>
    exact tracks_inside (quiet_of_all rfl)
      |>.append (condition.tracks around)
      |>.append (tracks_inBlock (by decide) (body.tracks _))
      |>.append (tracks_closing (by decide))
  | repeatLoop body condition =>
    exact tracks_inBlock (by decide) (body.tracks _)
      |>.append (tracks_closing (by decide))
      |>.append (condition.tracks around)
  | conditional condition body rest =>
    exact tracks_inside (quiet_of_all rfl)
      |>.append (condition.tracks around)
      |>.append (tracks_inBlock (by decide) (body.tracks _))
      |>.append (rest.tracks around)
  | numericLoop name first limit body =>
    exact tracks_inside (quiet_of_all rfl)
      |>.append (first.tracks around)
      |>.append (tracks_inside (quiet_of_all rfl))
      |>.append (limit.tracks around)
      |>.append (tracks_inBlock (by decide) (body.tracks _))
      |>.append (tracks_closing (by decide))
  | steppedLoop name first limit step body =>
    exact tracks_inside (quiet_of_all rfl)
      |>.append (first.tracks around)
      |>.append (tracks_inside (quiet_of_all rfl))
      |>.append (limit.tracks around)
      |>.append (tracks_inside (quiet_of_all rfl))
      |>.append (step.tracks around)
      |>.append (tracks_inBlock (by decide) (body.tracks _))
      |>.append (tracks_closing (by decide))
  | genericLoop name others values body =>
    have header : Quiet (.ofWord "for" :: nameTokens (name :: others) ++ [.ofWord "in"]) := by
      rw [List.cons_append, quiet_cons, quiet_append]
      exact ⟨rfl, quiet_names _, quiet_of_all rfl⟩
    exact tracks_inside header
      |>.append (values.tracks around)
      |>.append (tracks_inBlock (by decide) (body.tracks _))
      |>.append (tracks_closing (by decide))
  | function path parameters body =>
    exact tracks_header quiet_nil (quiet_path path)
      |>.append (tracks_bodyPlaced parameters (body.tracks _))
  | localFunction name parameters body =>
    have word : Quiet [.ofWord "local"] := quiet_of_all rfl
    exact tracks_header word (quiet_of_all rfl)
      |>.append (tracks_bodyPlaced parameters (body.tracks _))
  | declare first others =>
    have row : Quiet (.ofWord "local" :: commaSeparated ((first :: others).map Declared.tokens)) :=
      quiet_cons.mpr ⟨rfl, quiet_declarations first others⟩
    exact tracks_inside row
  | declareValues first others values =>
    have header : Quiet (.ofWord "local" ::
        commaSeparated ((first :: others).map Declared.tokens) ++ [.ofSymbol "="]) := by
      rw [List.cons_append, quiet_cons, quiet_append]
      exact ⟨rfl, quiet_declarations first others, quiet_of_all rfl⟩
    exact tracks_inside header
      |>.append (values.tracks around)
  | _ => exact tracks_inside (quiet_of_all rfl)

theorem Targets.tracks (around : List Enclosure) (targets : Targets) :
    Tracks (inside around) (targets.placed around) (inside around) := by
  cases targets with
  | last target => exact target.tracks around
  | next target rest =>
    exact target.tracks around
      |>.append (tracks_inside (quiet_of_all rfl))
      |>.append (rest.tracks around)

/-- What follows the first branch of a conditional ends the block of that branch. -/
theorem Alternatives.tracks (around : List Enclosure) (alternatives : Alternatives) :
    Tracks (inside (.block :: around)) (alternatives.placed around) (inside around) := by
  cases alternatives with
  | finished => exact tracks_closing (by decide)
  | otherwise body =>
    exact tracks_else (body.tracks _)
      |>.append (tracks_closing (by decide))
  | next condition body rest =>
    exact tracks_closing (by decide)
      |>.append (condition.tracks around)
      |>.append (tracks_inBlock (by decide) (body.tracks _))
      |>.append (rest.tracks around)

end

end Lua

end LogPipeline
