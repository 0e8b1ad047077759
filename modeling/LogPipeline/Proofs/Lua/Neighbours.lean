import LogPipeline.Proofs.Lua.Breaking

namespace LogPipeline

namespace Lua

open Marked

/-!
# The neighbours in a script

Going through the tokens of a phrase from where it can begin leads to where it can
end, and for each two neighbours on the way a layout decides what the grammar says.
-/

/-! ## Flat rows -/

section Flat

variable {start finish : Marked → Prop} {around : List Enclosure} {token : Token}

theorem carries_comma : Carries Calm (within around [.ofSymbol ","]) Ready :=
  carries_calm rfl rfl (ready_plain rfl)

theorem carries_name (name : List Char) :
    Carries Ready (within around [.ofName name]) (Ended around) :=
  carries_ready rfl (ended_plain rfl rfl)

/-- A sign between two parts of an expression. -/
theorem carries_sign (notClosing : token.isAnyWord closingWords = false)
    (inner : suggestsStatement token = false) (open' : endsExpression token = false) :
    Carries (Ended around) (within around [token]) Ready :=
  (carries_calm notClosing inner (ready_plain open')).ofEnded

/-- A word behind which an expression stands. -/
theorem carries_word (notClosing : token.isAnyWord closingWords = false)
    (open' : endsExpression token = false) : Carries Ready (within around [token]) Ready :=
  carries_ready notClosing (ready_plain open')

theorem carries_commaSeparated {rows : List (List Token)} (some : rows ≠ [])
    (each : ∀ row ∈ rows, Carries Ready (within around row) finish)
    (calm : ∀ marked, finish marked → marked.Calm) :
    Carries Ready (within around (commaSeparated rows)) finish := by
  induction rows with
  | nil => exact absurd rfl some
  | cons row rows inductionHypothesis =>
    rw [List.forall_mem_cons] at each
    by_cases last : rows = []
    · rw [last, commaSeparated, List.intercalate_singleton]
      exact each.1
    · rw [commaSeparated, List.intercalate_cons_of_ne_nil last, within_append, within_append]
      exact each.1
        |>.append (carries_comma.before calm)
        |>.append (inductionHypothesis last each.2)

theorem carries_nameTokens (name : List Char) (others : List (List Char)) :
    Carries Ready (within around (nameTokens (name :: others))) (Ended around) := by
  refine carries_commaSeparated (by simp) (fun row member => ?_) fun _ ended => ended.toCalm
  obtain ⟨name, -, rfl⟩ := List.mem_map.mp member
  exact carries_name name

theorem carries_parameters (parameters : Parameters) :
    Carries Ready (within around parameters.inside) Calm := by
  unfold Parameters.inside
  by_cases none : parameters.names.map (fun name => [Token.ofName name]) ++
      (if parameters.more then [[Token.ofSymbol "..."]] else []) = []
  · rw [none]
    exact carries_nil fun _ ready => ready.toCalm
  apply carries_commaSeparated none _ fun _ calm => calm
  rw [List.forall_mem_append]
  constructor
  · intro row member
    obtain ⟨name, -, rfl⟩ := List.mem_map.mp member
    exact (carries_name name).toCalm
  · split
    · intro row member
      have ended : Ended around { token := .ofSymbol "...", around := around } :=
        ended_plain rfl rfl
      rw [List.mem_singleton.mp member]
      exact carries_ready rfl ended.toCalm
    · simp

theorem carries_path (path : FunctionPath) :
    Carries Ready (within around path.tokens) (Ended around) := by
  have part (sign : Token) (name : List Char) (inner : sign = .ofSymbol "." ∨ sign = .ofSymbol ":") :
      Carries (Ended around) (within around [sign, .ofName name]) (Ended around) := by
    rcases inner with rfl | rfl <;>
      exact (carries_sign rfl rfl rfl).append (carries_name name)
  have fields : Carries (Ended around)
      (within around (path.fields.flatMap fun field => [.ofSymbol ".", .ofName field]))
      (Ended around) := by
    induction path.fields with
    | nil => exact carries_nil fun _ ended => ended
    | cons field fields inductionHypothesis =>
      rw [List.flatMap_cons, within_append]
      exact (part _ field (.inl rfl)).append inductionHypothesis
  rw [FunctionPath.tokens, within_append, within_cons]
  refine ((carries_name path.base).append fields).append ?_
  split
  · exact part _ _ (.inr rfl)
  · exact carries_nil fun _ ended => ended

theorem carries_declared (declared : Declared) :
    Carries Ready (within around declared.tokens) (Rested around) := by
  rw [Declared.tokens, within_cons]
  split
  case h_1 restriction _ =>
    have closing : Carries (Ended around) (within around [.ofSymbol ">"]) (Rested around) :=
      (carries_calm rfl rfl (.inr ⟨(ready_plain rfl).toCalm, rfl⟩)).ofEnded
    exact carries_name _
      |>.append (carries_sign rfl rfl rfl)
      |>.append (carries_name _)
      |>.append closing
  case h_2 =>
    exact (carries_name _).append (carries_nil fun _ ended => .inl ended)

theorem carries_declarations (first : Declared) (others : List Declared) :
    Carries Ready (within around (commaSeparated ((first :: others).map Declared.tokens)))
      (Rested around) := by
  refine carries_commaSeparated (by simp) (fun row member => ?_) fun _ rested => rested.calm
  obtain ⟨declared, -, rfl⟩ := List.mem_map.mp member
  exact carries_declared declared

theorem carries_label (name : List Char) :
    Carries Ready (labelMarked around name) (Ended around) := by
  intro before ready
  have opened : before.Step { token := .ofSymbol "::", around := around } :=
    step_of_ready ready rfl rfl rfl
  have named : Step { token := .ofSymbol "::", around := around }
      { token := .ofName name, around := around, inLabel := true } :=
    ⟨rfl, nofun, nofun, rfl⟩
  have closed : Step { token := .ofName name, around := around, inLabel := true }
      { token := .ofSymbol "::", around := around, inLabel := true } :=
    ⟨rfl, nofun, nofun, Layout.breaksBefore_colons rfl rfl⟩
  refine ⟨_, .cons opened (.cons named (.cons closed .nil)), ?_⟩
  exact ⟨⟨rfl, nofun⟩, rfl, rfl⟩

end Flat

/-! ## Brackets and blocks -/

section Enclosing

variable {start : Marked → Prop} {around : List Enclosure}

theorem outside_block : (Enclosure.block :: around).head? ≠ some .bracket := by
  simp

theorem carries_bracketsMarked {first last : String} (opens : first ∈ ["(", "[", "\x7b"])
    (closes : last ∈ [")", "]", "\x7d"]) {inside : List Enclosure → List Marked}
    (carries : Carries Ready (inside (.bracket :: around)) Calm) :
    Carries Calm (bracketsMarked around first last inside) (Ended around) := by
  have opened : Carries Calm (unmarked (opening .bracket around (.ofSymbol first))) Ready := by
    rcases Nesting.eq_of_mem_three opens with rfl | rfl | rfl <;>
      exact carries_calm rfl rfl (ready_placed rfl nofun)
  have closed : Carries Calm (within around [.ofSymbol last]) (Ended around) := by
    rcases Nesting.eq_of_mem_three closes with rfl | rfl | rfl <;>
      exact carries_calm rfl rfl (ended_plain rfl rfl)
  exact opened
    |>.append carries
    |>.append closed

theorem carries_end :
    Carries (fun marked => marked.labelBehind = false) (within around [.ofWord "end"])
      (Ended around) :=
  carries_closes rfl (ended_plain rfl rfl)

theorem carries_bodyMarked (parameters : Parameters) {body : List Enclosure → List Marked}
    (carries : Carries (Settled (.block :: around)) (body (.block :: around))
      fun marked => marked.labelBehind = false) :
    Carries Calm (bodyMarked around parameters body) (Ended around) := by
  have opened : Carries Calm (unmarked (opening .bracket around (.ofSymbol "("))) Ready :=
    carries_calm rfl rfl (ready_placed rfl nofun)
  have closed : Carries Calm (unmarked (opening .block around (.ofSymbol ")")))
      (Settled (.block :: around)) :=
    carries_calm rfl rfl (settled_opening rfl)
  exact opened
    |>.append (carries_parameters parameters)
    |>.append closed
    |>.append carries
    |>.append carries_end

theorem carries_blockMarked {first : String}
    (opens : Carries start (unmarked (opening .block around (.ofWord first)))
      (Settled (.block :: around)))
    {body : List Enclosure → List Marked}
    (carries : Carries (Settled (.block :: around)) (body (.block :: around))
      fun marked => marked.labelBehind = false) :
    Carries start (blockMarked around first body) fun marked => marked.labelBehind = false :=
  opens.append carries

theorem carries_opening {first : String} (opens : first ∈ ["do", "then"]) :
    Carries (Ended around) (unmarked (opening .block around (.ofWord first)))
      (Settled (.block :: around)) := by
  have calm : Carries Calm (unmarked (opening .block around (.ofWord first)))
      (Settled (.block :: around)) := by
    rw [List.mem_pair] at opens
    rcases opens with rfl | rfl <;> exact carries_calm rfl rfl (settled_opening rfl)
  exact calm.ofEnded

end Enclosing

/-! ## Beginnings -/

/-- A row whose first token can begin a statement. -/
def Starts (row : List Marked) : Prop :=
  ∃ first rest, row = first :: rest ∧ CanBegin first.token

theorem Starts.append {row : List Marked} (starts : Starts row) (rest : List Marked) :
    Starts (row ++ rest) := by
  obtain ⟨first, others, rfl, can⟩ := starts
  exact ⟨first, others ++ rest, rfl, can⟩

theorem starts_listed {first : Marked} (listed : decide (first.token ∈ beginners) = true)
    (rest : List Marked) : Starts (first :: rest) :=
  ⟨first, rest, rfl, .inr (of_decide_eq_true listed)⟩

/-- What a phrase does where an expression can begin, it does where a statement can
begin, once its first token is marked. -/
theorem carries_beginning {around : List Enclosure} (outside : around.head? ≠ some .bracket)
    {row : List Marked} {finish : Marked → Prop} (carries : Carries Ready row finish)
    (starts : Starts row)
    (keeps : ∀ marked, finish marked → finish { marked with begins := true }) :
    Carries (Settled around) (beginning row) finish := by
  intro before settled
  obtain ⟨first, rest, rfl, can⟩ := starts
  have ready : Ready { token := .ofSymbol "=", around := around } := ready_plain rfl
  obtain ⟨last, joined, ends⟩ := carries _ ready
  cases joined with
  | cons step others =>
    have begun : before.Step { first with begins := true } :=
      step_of_settled settled outside rfl step.inLabel can
    cases others with
    | nil => exact ⟨_, .cons begun .nil, keeps first ends⟩
    | cons next more =>
      exact ⟨last, .cons begun (.cons ⟨next.inLabel, next.first, next.notClosing, next.breaks⟩ more), ends⟩

mutual

theorem Primary.starts (around : List Enclosure) (primary : Primary) :
    Starts (primary.marked around) := by
  cases primary with
  | place inner => exact inner.starts around
  | call inner => exact inner.starts around
  | grouped inner => exact starts_listed rfl _

theorem Place.starts (around : List Enclosure) (place : Place) : Starts (place.marked around) := by
  cases place with
  | named name => exact ⟨_, _, rfl, .inl rfl⟩
  | field table name => exact (table.starts around).append _
  | index table key => exact (table.starts around).append _

theorem Call.starts (around : List Enclosure) (call : Call) : Starts (call.marked around) := by
  cases call with
  | function callee arguments => exact (callee.starts around).append _
  | method object name arguments => exact ((object.starts around).append _).append _

end

theorem Targets.starts (around : List Enclosure) (targets : Targets) :
    Starts (targets.marked around) := by
  cases targets with
  | last target => exact target.starts around
  | next target rest => exact ((target.starts around).append _).append _

theorem Statement.starts (around : List Enclosure) (statement : Statement) :
    Starts (statement.marked around) := by
  cases statement with
  | assign targets values => exact ((targets.starts around).append _).append _
  | call inner => exact inner.starts around
  | _ => exact starts_listed rfl _

/-! ## Phrases -/

section Operators

theorem carries_unary (operator : UnaryOperator) {around : List Enclosure} :
    Carries Ready (within around [operator.token]) Ready := by
  cases operator <;> exact carries_word rfl rfl

theorem carries_binary (operator : BinaryOperator) {around : List Enclosure} :
    Carries (Ended around) (within around [operator.token]) Ready := by
  cases operator <;> exact carries_sign rfl rfl rfl

theorem carries_separator (separator : Separator) {around : List Enclosure} :
    Carries (Ended around) (within around [separator.token]) Ready := by
  cases separator <;> exact carries_sign rfl rfl rfl

theorem carries_semicolon (present : Bool) {around : List Enclosure} :
    Carries Calm (within around (semicolonTokens present)) Calm := by
  cases present with
  | false => exact carries_nil fun _ calm => calm
  | true => exact carries_calm rfl rfl (ready_plain rfl).toCalm

end Operators

mutual

theorem Expression.carries (around : List Enclosure) (expression : Expression) :
    Carries Ready (expression.marked around) (Ended around) := by
  cases expression with
  | closure parameters body =>
    exact (carries_word rfl rfl)
      |>.append (carries_bodyMarked parameters (body.carries outside_block)).ofReady
  | table fields =>
    exact Carries.ofReady (carries_bracketsMarked (by decide) (by decide) (fields.carries _))
  | primary inner => exact inner.carries around
  | unary operator operand => exact (carries_unary operator).append (operand.carries around)
  | binary left operator right =>
    exact left.carries around
      |>.append (carries_binary operator)
      |>.append (right.carries around)
  | truth value => cases value <;> exact carries_ready rfl (ended_plain rfl rfl)
  | _ => exact carries_ready rfl (ended_plain rfl rfl)

theorem Primary.carries (around : List Enclosure) (primary : Primary) :
    Carries Ready (primary.marked around) (Ended around) := by
  cases primary with
  | place inner => exact inner.carries around
  | call inner => exact inner.carries around
  | grouped inner =>
    rw [Primary.marked]
    exact Carries.ofReady (carries_bracketsMarked (by decide) (by decide) (inner.carries _).toCalm)

theorem Place.carries (around : List Enclosure) (place : Place) :
    Carries Ready (place.marked around) (Ended around) := by
  cases place with
  | named name => exact carries_name name
  | field table name =>
    exact table.carries around
      |>.append ((carries_sign rfl rfl rfl).append (carries_name name))
  | index table key =>
    exact table.carries around
      |>.append (Carries.ofEnded
        (carries_bracketsMarked (by decide) (by decide) (key.carries _).toCalm))

theorem Call.carries (around : List Enclosure) (call : Call) :
    Carries Ready (call.marked around) (Ended around) := by
  cases call with
  | function callee arguments =>
    exact callee.carries around
      |>.append (arguments.carries around).ofEnded
  | method object name arguments =>
    exact object.carries around
      |>.append ((carries_sign rfl rfl rfl).append (carries_name name))
      |>.append (arguments.carries around).ofEnded

theorem Arguments.carries (around : List Enclosure) (arguments : Arguments) :
    Carries Calm (arguments.marked around) (Ended around) := by
  cases arguments with
  | empty =>
    rw [Arguments.marked]
    exact carries_bracketsMarked (by decide) (by decide)
      (carries_nil fun _ calm => calm).ofReady
  | listed values =>
    rw [Arguments.marked]
    exact carries_bracketsMarked (by decide) (by decide) (values.carries _).toCalm
  | table fields =>
    rw [Arguments.marked]
    exact carries_bracketsMarked (by decide) (by decide) (fields.carries _)
  | text letters => exact carries_calm rfl rfl (ended_plain rfl rfl)

theorem Expressions.carries (around : List Enclosure) (values : Expressions) :
    Carries Ready (values.marked around) (Ended around) := by
  cases values with
  | last value => exact value.carries around
  | next value rest =>
    exact value.carries around
      |>.append (carries_sign rfl rfl rfl)
      |>.append (rest.carries around)

theorem Fields.carries (around : List Enclosure) (fields : Fields) :
    Carries Ready (fields.marked around) Calm := by
  cases fields with
  | empty => exact carries_nil fun _ ready => ready.toCalm
  | last field => exact (field.carries around).toCalm
  | next field separator rest =>
    exact field.carries around
      |>.append (carries_separator separator)
      |>.append (rest.carries around)

theorem Field.carries (around : List Enclosure) (field : Field) :
    Carries Ready (field.marked around) (Ended around) := by
  cases field with
  | item value => exact value.carries around
  | named name value =>
    exact (carries_name name).append (carries_sign rfl rfl rfl)
      |>.append (value.carries around)
  | keyed key value =>
    exact (Carries.ofReady (carries_bracketsMarked (by decide) (by decide) (key.carries _).toCalm))
      |>.append (carries_sign rfl rfl rfl)
      |>.append (value.carries around)

/-- Statements stand where statements can, and behind them a word can close the
block. -/
theorem Block.carries {around : List Enclosure} (outside : around.head? ≠ some .bracket)
    (block : Block) :
    Carries (Settled around) (block.marked around) fun marked => marked.labelBehind = false := by
  cases block with
  | finished => exact carries_nil fun _ settled => settled.noLabel
  | returning semicolon =>
    have row : Carries Ready (within around (.ofWord "return" :: semicolonTokens semicolon)) Calm :=
      (carries_word rfl rfl).append
        (carries_semicolon semicolon).ofReady
    refine (carries_beginning outside row (starts_listed rfl _) ?_).behind
      fun _ calm => calm.noLabel
    exact fun marked calm => ⟨calm.noLabel, calm.noBlock⟩
  | returningValues values semicolon =>
    have row : Carries Ready (within around [.ofWord "return"] ++ values.marked around ++
        within around (semicolonTokens semicolon)) Calm :=
      (carries_word rfl rfl).append (values.carries around)
        |>.append (carries_semicolon semicolon).ofEnded
    refine (carries_beginning outside row (starts_listed rfl _) ?_).behind
      fun _ calm => calm.noLabel
    exact fun marked calm => ⟨calm.noLabel, calm.noBlock⟩
  | next statement rest =>
    have first := carries_beginning outside (statement.carries around) (statement.starts around)
      fun marked rested => rested.imp (fun ended => ⟨⟨ended.noLabel, ended.noBlock⟩, ended.ends,
        ended.behind⟩) fun ⟨calm, ends⟩ => ⟨⟨calm.noLabel, calm.noBlock⟩, ends⟩
    exact (first.behind fun _ rested => .inr rested).append (rest.carries outside)

theorem Statement.carries (around : List Enclosure) (statement : Statement) :
    Carries Ready (statement.marked around) (Rested around) := by
  cases statement with
  | empty => exact carries_ready rfl (.inr ⟨(ready_plain rfl).toCalm, rfl⟩)
  | assign targets values =>
    exact (targets.carries around).append (carries_sign rfl rfl rfl)
      |>.append (values.carries around)
      |>.toRested
  | call inner => exact (inner.carries around).toRested
  | label name => exact (carries_label name).toRested
  | exit => exact carries_ready rfl (.inl (ended_plain rfl rfl))
  | jump name =>
    exact (carries_word rfl rfl).append (carries_name name)
      |>.toRested
  | enclosed body =>
    exact (carries_blockMarked (carries_ready rfl (settled_opening rfl))
        (body.carries outside_block)).append carries_end
      |>.toRested
  | whileLoop condition body =>
    exact (carries_word rfl rfl).append (condition.carries around)
      |>.append (carries_blockMarked (carries_opening (by decide)) (body.carries outside_block))
      |>.append carries_end
      |>.toRested
  | repeatLoop body condition =>
    exact (carries_blockMarked (carries_ready rfl (settled_opening rfl))
        (body.carries outside_block)).append (carries_closes rfl (ready_plain rfl))
      |>.append (condition.carries around)
      |>.toRested
  | conditional condition body rest =>
    exact (carries_word rfl rfl).append (condition.carries around)
      |>.append (carries_blockMarked (carries_opening (by decide)) (body.carries outside_block))
      |>.append (rest.carries around)
      |>.toRested
  | numericLoop name first limit body =>
    exact ((carries_word rfl rfl).append
        ((carries_name name).append (carries_sign rfl rfl rfl)))
      |>.append (first.carries around)
      |>.append (carries_sign rfl rfl rfl)
      |>.append (limit.carries around)
      |>.append (carries_blockMarked (carries_opening (by decide)) (body.carries outside_block))
      |>.append carries_end
      |>.toRested
  | steppedLoop name first limit step body =>
    exact ((carries_word rfl rfl).append
        ((carries_name name).append (carries_sign rfl rfl rfl)))
      |>.append (first.carries around)
      |>.append (carries_sign rfl rfl rfl)
      |>.append (limit.carries around)
      |>.append (carries_sign rfl rfl rfl)
      |>.append (step.carries around)
      |>.append (carries_blockMarked (carries_opening (by decide)) (body.carries outside_block))
      |>.append carries_end
      |>.toRested
  | genericLoop name others values body =>
    have header : Carries Ready
        (within around (.ofWord "for" :: nameTokens (name :: others) ++ [.ofWord "in"])) Ready := by
      rw [within_append, within_cons]
      exact (carries_word rfl rfl).append (carries_nameTokens name others)
        |>.append (carries_sign rfl rfl rfl)
    exact header.append (values.carries around)
      |>.append (carries_blockMarked (carries_opening (by decide)) (body.carries outside_block))
      |>.append carries_end
      |>.toRested
  | function path parameters body =>
    have header : Carries Ready (within around (.ofWord "function" :: path.tokens))
        (Ended around) :=
      (carries_word rfl rfl).append (carries_path path)
    exact header.append (carries_bodyMarked parameters (body.carries outside_block)).ofEnded
      |>.toRested
  | localFunction name parameters body =>
    have header : Carries Ready
        (within around [.ofWord "local", .ofWord "function", .ofName name]) (Ended around) :=
      (carries_word rfl rfl).append ((carries_word rfl rfl).append (carries_name name))
    exact header.append (carries_bodyMarked parameters (body.carries outside_block)).ofEnded
      |>.toRested
  | declare first others => exact (carries_word rfl rfl).append (carries_declarations first others)
  | declareValues first others values =>
    have equals : Carries (Rested around) (within around [.ofSymbol "="]) Ready :=
      (carries_calm rfl rfl (ready_plain rfl)).before fun _ rested => rested.calm
    have header : Carries Ready (within around (.ofWord "local" ::
        commaSeparated ((first :: others).map Declared.tokens) ++ [.ofSymbol "="])) Ready := by
      rw [within_append, within_cons]
      exact ((carries_word rfl rfl).append (carries_declarations first others)).append equals
    exact header.append (values.carries around)
      |>.toRested

theorem Targets.carries (around : List Enclosure) (targets : Targets) :
    Carries Ready (targets.marked around) (Ended around) := by
  cases targets with
  | last target => exact target.carries around
  | next target rest =>
    exact target.carries around
      |>.append (carries_sign rfl rfl rfl)
      |>.append (rest.carries around)

theorem Alternatives.carries (around : List Enclosure) (alternatives : Alternatives) :
    Carries (fun marked => marked.labelBehind = false) (alternatives.marked around)
      (Ended around) := by
  cases alternatives with
  | finished => exact carries_end
  | otherwise body =>
    exact (carries_blockMarked (carries_closes rfl (settled_opening rfl))
        (body.carries outside_block)).append carries_end
  | next condition body rest =>
    exact (carries_closes rfl (ready_plain rfl)).append (condition.carries around)
      |>.append (carries_blockMarked (carries_opening (by decide)) (body.carries outside_block))
      |>.append (rest.carries around)

end

end Lua

end LogPipeline
