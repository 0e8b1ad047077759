import LogPipeline.Lua.Reading
import LogPipeline.Proofs.Lua.Enclosing

namespace LogPipeline

namespace Lua

/-!
# Phrases are read from the tokens that spell them

A reader that gives a phrase has taken the tokens of that phrase and left the
others.  So the tokens of a script that the interpreter reads as a block are those
of a block, and what is proved of the tokens of all blocks holds for them.
-/

namespace Reading

variable {α β : Type}

/-- What a reader takes stands in front of what it leaves and fits its result. -/
def Takes (reader : Reader α) (fits : α → List Token → Prop) : Prop :=
  ∀ read rest result, reader.run read = some (result, rest) →
    ∃ taken, read = taken ++ rest ∧ fits result taken

theorem takes_failure (fits : α → List Token → Prop) : Takes failure fits := by
  intro read rest result run
  cases run

theorem takes_pure {fits : α → List Token → Prop} {result : α} (holds : fits result []) :
    Takes (pure result) fits := by
  intro read rest other run
  cases run
  exact ⟨[], rfl, holds⟩

theorem takes_bind {first : Reader α} {next : α → Reader β} {fitsFirst : α → List Token → Prop}
    {fits : β → List Token → Prop} (takes : Takes first fitsFirst)
    (others : ∀ result front, fitsFirst result front →
      Takes (next result) fun last back => fits last (front ++ back)) :
    Takes (first >>= next) fits := by
  intro read rest last run
  rw [StateT.run_bind] at run
  obtain ⟨⟨result, middle⟩, ran, goes⟩ := Option.bind_eq_some_iff.mp run
  obtain ⟨front, rfl, fitsFront⟩ := takes _ _ _ ran
  obtain ⟨back, rfl, fitsBack⟩ := others result front fitsFront _ _ _ goes
  exact ⟨front ++ back, by rw [List.append_assoc], fitsBack⟩

theorem Takes.mono {reader : Reader α} {fits others : α → List Token → Prop}
    (takes : Takes reader fits) (imply : ∀ result taken, fits result taken → others result taken) :
    Takes reader others := by
  intro read rest result run
  obtain ⟨taken, same, holds⟩ := takes read rest result run
  exact ⟨taken, same, imply result taken holds⟩

theorem takes_get {next : List Token → Reader β} {fits : β → List Token → Prop}
    (others : ∀ read, Takes (next read) fits) : Takes (get >>= next) fits := by
  intro read rest last run
  exact others read _ _ _ run

theorem takes_peek {next : Option Token → Reader β} {fits : β → List Token → Prop}
    (others : ∀ token, Takes (next token) fits) : Takes (peek >>= next) fits := by
  intro read rest last run
  exact others read.head? _ _ _ run

theorem run_skip (token : Token) (read : List Token) :
    (skip token).run read =
      if read.head? = some token then some (true, read.tail) else some (false, read) := by
  change (if read.head? = some token then _ else _ : Reader Bool).run read = _
  split <;> rfl

theorem takes_skip (token : Token) :
    Takes (skip token) fun found taken => taken = if found then [token] else [] := by
  intro read rest found run
  rw [run_skip] at run
  split at run
  case isTrue isNext =>
    cases read with
    | nil => cases isNext
    | cons first others =>
      cases isNext
      cases run
      exact ⟨[token], rfl, rfl⟩
  case isFalse =>
    cases run
    exact ⟨[], rfl, rfl⟩

/-- Two ways to go on, with a given token and without. -/
theorem takes_ifSkip {token : Token} {found other : Reader β} {fits : β → List Token → Prop}
    (whereFound : Takes found fun last back => fits last (token :: back))
    (otherwise : Takes other fits) :
    Takes (do if ← skip token then found else other) fits := by
  refine takes_bind (takes_skip token) ?_
  rintro (_ | _) front rfl
  · exact otherwise
  · exact whereFound

theorem takes_expect {token : Token} {next : Unit → Reader β} {fits : β → List Token → Prop}
    (others : Takes (next ()) fun last back => fits last (token :: back)) :
    Takes (expect token >>= next) fits := by
  have single : Takes (expect token) fun _ taken => taken = [token] :=
    takes_ifSkip (takes_pure rfl) (takes_failure _)
  refine takes_bind single ?_
  rintro ⟨⟩ front rfl
  exact others

theorem takes_letters (kind : TokenKind) :
    Takes (letters kind) fun result taken => taken = [{ kind := kind, letters := result }] := by
  intro read rest result run
  cases read with
  | nil => cases run
  | cons first others =>
    change (if first.kind = kind then _ else _ : Reader (List Char)).run (first :: others) = _ at run
    split at run
    case isTrue same =>
      cases run
      exact ⟨[first], rfl, by rw [← same]⟩
    case isFalse => cases run

theorem takes_letters? (kind : TokenKind) :
    Takes (letters? kind) fun result taken =>
      taken = (result.map fun found => { kind := kind, letters := found : Token }).toList := by
  refine takes_peek fun next => ?_
  split
  · refine takes_bind (takes_letters kind) ?_
    rintro found front rfl
    exact takes_pure rfl
  · exact takes_pure rfl

/-! ## Rows and names -/

theorem takes_name : Takes name fun result taken => taken = [Token.ofName result] :=
  takes_letters .name

theorem takes_listWithin {item : Reader α} {tokens : α → List Token}
    (takes : Takes item fun result taken => taken = tokens result) (count : Nat) :
    Takes (listWithin item count) fun result taken =>
      taken = commaSeparated ((result.1 :: result.2).map tokens) := by
  induction count with
  | zero => exact takes_failure _
  | succ count inductionHypothesis =>
    refine takes_bind takes ?_
    rintro first front rfl
    apply takes_ifSkip
    · refine takes_bind inductionHypothesis ?_
      rintro ⟨second, others⟩ back rfl
      refine takes_pure ?_
      simp [commaSeparated, List.intercalate_cons_cons]
    · refine takes_pure ?_
      simp [commaSeparated]

/-- Behind a comma there is a name, or the sign for further arguments. -/
theorem takes_parametersWithin (count : Nat) :
    Takes (parametersWithin count) fun result taken =>
      taken = result.inside ++ [.ofSymbol ")"] ∧ (result.names ≠ [] ∨ result.more = true) := by
  induction count with
  | zero => exact takes_failure _
  | succ count inductionHypothesis =>
    apply takes_ifSkip
    · exact takes_expect (takes_pure ⟨rfl, .inr rfl⟩)
    refine takes_bind takes_name ?_
    rintro first front rfl
    apply takes_ifSkip
    · refine takes_bind inductionHypothesis ?_
      rintro others back ⟨rfl, some⟩
      have rows : (others.names.map (fun name => [Token.ofName name]) ++
          if others.more then [[Token.ofSymbol "..."]] else []) ≠ [] := by
        rcases some with names | more
        · simp [names]
        · simp [more]
      refine takes_pure ⟨?_, .inl (List.cons_ne_nil _ _)⟩
      simp [Parameters.inside, commaSeparated, List.intercalate_cons_of_ne_nil rows]
    · refine takes_expect (takes_pure ⟨?_, .inl (List.cons_ne_nil _ _)⟩)
      simp [Parameters.inside, commaSeparated]

theorem takes_parameters (bound : Nat) :
    Takes (parameters bound) fun result taken => taken = result.tokens := by
  apply takes_expect
  apply takes_ifSkip
  · exact takes_pure rfl
  · refine (takes_parametersWithin bound).mono ?_
    rintro result taken ⟨rfl, -⟩
    rfl

theorem takes_declared : Takes declared fun result taken => taken = result.tokens := by
  refine takes_bind takes_name ?_
  rintro variableName front rfl
  apply takes_ifSkip
  · refine takes_bind takes_name ?_
    rintro word middle rfl
    apply takes_expect
    split
    case h_1 restriction found =>
      have spelled : restriction.word.toList = word := by simpa using List.find?_some found
      refine takes_pure ?_
      simp [Declared.tokens, spelled]
    case h_2 => exact takes_failure _
  · exact takes_pure rfl

theorem takes_pathWithin (base : List Char) (count : Nat) :
    Takes (pathWithin base count) fun result taken =>
      result.tokens = .ofName base :: taken := by
  induction count with
  | zero => exact takes_failure _
  | succ count inductionHypothesis =>
    apply takes_ifSkip
    · refine takes_bind takes_name ?_
      rintro field front rfl
      refine takes_bind inductionHypothesis ?_
      intro path back same
      refine takes_pure ?_
      simp only [FunctionPath.tokens, List.cons_append, List.cons.injEq] at same
      simp [FunctionPath.tokens, same]
    apply takes_ifSkip
    · refine takes_bind takes_name ?_
      rintro method front rfl
      exact takes_pure rfl
    · exact takes_pure rfl

theorem takes_path (bound : Nat) : Takes (path bound) fun result taken => taken = result.tokens := by
  refine takes_bind takes_name ?_
  rintro base front rfl
  exact (takes_pathWithin base bound).mono fun path taken spelled => spelled.symm

/-! ## A level -/

/-- The readers of a level take what they give. -/
structure Faithful (inner : Level) : Prop where
  expression (bound : Nat) :
    Takes (inner.expression bound) fun result taken => taken = result.tokens
  statement : Takes inner.statement fun result taken => taken = result.tokens
  returning : Takes inner.returning fun result taken => taken = result.tokens
  assignment (place : Place) :
    Takes (inner.assignment place) fun result taken =>
      place.tokens ++ taken = result.1.tokens ++ .ofSymbol "=" :: result.2.tokens

section Level

variable {inner : Level} (faithful : Faithful inner)
include faithful

theorem takes_expressionsWithin (count : Nat) :
    Takes (expressionsWithin inner count) fun result taken => taken = result.tokens := by
  induction count with
  | zero => exact takes_failure _
  | succ count inductionHypothesis =>
    refine takes_bind (faithful.expression 0) ?_
    rintro value front rfl
    apply takes_ifSkip
    · refine takes_bind inductionHypothesis ?_
      rintro rest back rfl
      refine takes_pure ?_
      simp [Expressions.tokens]
    · refine takes_pure ?_
      simp [Expressions.tokens]

theorem takes_expressions : Takes (expressions inner) fun result taken => taken = result.tokens :=
  takes_expressionsWithin faithful inner.bound

theorem takes_field : Takes (field inner) fun result taken => taken = result.tokens := by
  refine takes_get fun read => ?_
  split
  case h_1 =>
    split
    · refine takes_bind takes_name ?_
      rintro key front rfl
      refine takes_expect (takes_bind (faithful.expression 0) ?_)
      rintro value back rfl
      refine takes_pure ?_
      simp [Field.tokens]
    apply takes_ifSkip
    · refine takes_bind (faithful.expression 0) ?_
      rintro key front rfl
      refine takes_expect (takes_expect (takes_bind (faithful.expression 0) ?_))
      rintro value back rfl
      refine takes_pure ?_
      simp [Field.tokens]
    · refine takes_bind (faithful.expression 0) ?_
      rintro value back rfl
      refine takes_pure ?_
      simp [Field.tokens]
  case h_2 => exact takes_failure _

omit faithful in
theorem takes_separator? :
    Takes separator? fun result taken => taken = (result.map Separator.token).toList := by
  apply takes_ifSkip
  · exact takes_pure rfl
  apply takes_ifSkip
  · exact takes_pure rfl
  · exact takes_pure rfl

theorem takes_fieldsWithin (count : Nat) :
    Takes (fieldsWithin inner count) fun result taken =>
      taken = result.tokens ++ [.ofSymbol "\x7d"] := by
  induction count with
  | zero => exact takes_failure _
  | succ count inductionHypothesis =>
    apply takes_ifSkip
    · exact takes_pure rfl
    refine takes_bind (takes_field faithful) ?_
    rintro first front rfl
    refine takes_bind takes_separator? ?_
    rintro (_ | separator) middle rfl
    · refine takes_expect (takes_pure ?_)
      simp [Fields.tokens]
    · refine takes_bind inductionHypothesis ?_
      rintro rest back rfl
      refine takes_pure ?_
      simp [Fields.tokens]

theorem takes_arguments : Takes (arguments inner) fun result taken => taken = result.tokens := by
  apply takes_ifSkip
  · apply takes_ifSkip
    · exact takes_pure rfl
    refine takes_bind (takes_expressions faithful) ?_
    rintro values front rfl
    refine takes_expect (takes_pure ?_)
    simp [Arguments.tokens]
  apply takes_ifSkip
  · refine takes_bind (takes_fieldsWithin faithful inner.bound) ?_
    rintro fields front rfl
    refine takes_pure ?_
    simp [Arguments.tokens]
  · refine takes_bind (takes_letters .string) ?_
    rintro letters front rfl
    exact takes_pure rfl

theorem takes_suffixesWithin (count : Nat) (primary : Primary) :
    Takes (suffixesWithin inner count primary) fun result taken =>
      primary.tokens ++ taken = result.tokens := by
  induction count generalizing primary with
  | zero => exact takes_failure _
  | succ count inductionHypothesis =>
    apply takes_ifSkip
    · refine takes_bind takes_name ?_
      rintro name front rfl
      refine (inductionHypothesis _).mono fun result taken spelled => ?_
      rw [← spelled]
      simp [Primary.tokens, Place.tokens]
    apply takes_ifSkip
    · refine takes_bind (faithful.expression 0) ?_
      rintro key front rfl
      refine takes_expect ((inductionHypothesis _).mono fun result taken spelled => ?_)
      rw [← spelled]
      simp [Primary.tokens, Place.tokens]
    apply takes_ifSkip
    · refine takes_bind takes_name ?_
      rintro method front rfl
      refine takes_bind (takes_arguments faithful) ?_
      rintro arguments middle rfl
      refine (inductionHypothesis _).mono fun result taken spelled => ?_
      rw [← spelled]
      simp [Primary.tokens, Call.tokens]
    refine takes_peek fun next => ?_
    split
    · refine takes_bind (takes_arguments faithful) ?_
      rintro arguments middle rfl
      refine (inductionHypothesis _).mono fun result taken spelled => ?_
      rw [← spelled]
      simp [Primary.tokens, Call.tokens]
    · exact takes_pure (List.append_nil _)

theorem takes_primary : Takes (primary inner) fun result taken => taken = result.tokens := by
  have start : Takes (primaryStart inner) fun result taken => taken = result.tokens := by
    apply takes_ifSkip
    · refine takes_bind (faithful.expression 0) ?_
      rintro value front rfl
      refine takes_expect (takes_pure ?_)
      simp [Primary.tokens]
    · refine takes_bind takes_name ?_
      rintro name front rfl
      exact takes_pure rfl
  refine takes_bind start ?_
  rintro first front rfl
  exact takes_suffixesWithin faithful inner.bound first

theorem takes_block : Takes (block inner) fun result taken => taken = result.tokens := by
  have within (count : Nat) :
      Takes (blockWithin inner count) fun result taken => taken = result.tokens := by
    induction count with
    | zero => exact takes_failure _
    | succ count inductionHypothesis =>
      refine takes_peek fun next => ?_
      split
      · exact takes_pure rfl
      split
      · exact takes_pure rfl
      split
      · exact faithful.returning
      · refine takes_bind faithful.statement ?_
        rintro statement front rfl
        refine takes_bind inductionHypothesis ?_
        rintro rest back rfl
        exact takes_pure (by rw [Block.tokens, List.append_nil])
  exact within inner.bound

theorem takes_blockToEnd :
    Takes (blockToEnd inner) fun result taken => taken = result.tokens ++ [.ofWord "end"] := by
  refine takes_bind (takes_block faithful) ?_
  rintro body front rfl
  exact takes_expect (takes_pure rfl)

theorem takes_simple : Takes (simple inner) fun result taken => taken = result.tokens := by
  refine takes_bind (takes_letters? .number) ?_
  rintro (_ | number) front rfl
  case some => exact takes_pure rfl
  refine takes_bind (takes_letters? .string) ?_
  rintro (_ | text) front rfl
  case some => exact takes_pure rfl
  apply takes_ifSkip
  · exact takes_pure rfl
  apply takes_ifSkip
  · exact takes_pure rfl
  apply takes_ifSkip
  · exact takes_pure rfl
  apply takes_ifSkip
  · exact takes_pure rfl
  apply takes_ifSkip
  · refine takes_bind (takes_fieldsWithin faithful inner.bound) ?_
    rintro fields front rfl
    refine takes_pure ?_
    simp [Expression.tokens]
  apply takes_ifSkip
  · refine takes_bind (takes_parameters inner.bound) ?_
    rintro taken front rfl
    refine takes_bind (takes_blockToEnd faithful) ?_
    rintro body back rfl
    refine takes_pure ?_
    simp [Expression.tokens]
  · refine takes_bind (takes_primary faithful) ?_
    rintro inside front rfl
    refine takes_pure ?_
    simp [Expression.tokens]

theorem takes_operand : Takes (operand inner) fun result taken => taken = result.tokens := by
  refine takes_peek fun next => ?_
  split
  case h_1 operator found =>
    refine takes_expect (takes_bind (faithful.expression _) ?_)
    rintro value front rfl
    refine takes_pure ?_
    simp [Expression.tokens]
  case h_2 => exact takes_simple faithful

theorem takes_chainWithin (bound count : Nat) (left : Expression) :
    Takes (chainWithin inner bound count left) fun result taken =>
      left.tokens ++ taken = result.tokens := by
  induction count generalizing left with
  | zero => exact takes_failure _
  | succ count inductionHypothesis =>
    refine takes_peek fun next => ?_
    split
    case h_1 operator found =>
      split
      · refine takes_expect (takes_bind (faithful.expression _) ?_)
        rintro right front rfl
        refine (inductionHypothesis _).mono fun result taken spelled => ?_
        rw [← spelled]
        simp [Expression.tokens]
      · exact takes_pure (List.append_nil _)
    case h_2 => exact takes_pure (List.append_nil _)

theorem takes_expression (bound : Nat) :
    Takes (expression inner bound) fun result taken => taken = result.tokens := by
  refine takes_bind (takes_operand faithful) ?_
  rintro first front rfl
  exact takes_chainWithin faithful bound inner.bound first

/-! ## Statements -/

omit faithful in
theorem takes_label : Takes (label inner) fun result taken =>
    .ofSymbol "::" :: taken = result.tokens := by
  refine takes_bind takes_name ?_
  rintro labelName front rfl
  refine takes_expect (takes_get fun read => ?_)
  split
  · exact takes_pure rfl
  · exact takes_failure _

theorem takes_alternativesWithin (count : Nat) :
    Takes (alternativesWithin inner count) fun result taken => taken = result.tokens := by
  induction count with
  | zero => exact takes_failure _
  | succ count inductionHypothesis =>
    apply takes_ifSkip
    · refine takes_bind (faithful.expression 0) ?_
      rintro condition front rfl
      refine takes_expect (takes_bind (takes_block faithful) ?_)
      rintro body middle rfl
      refine takes_bind inductionHypothesis ?_
      rintro rest back rfl
      refine takes_pure ?_
      simp [Alternatives.tokens]
    apply takes_ifSkip
    · refine takes_bind (takes_blockToEnd faithful) ?_
      rintro body front rfl
      refine takes_pure ?_
      simp [Alternatives.tokens]
    · exact takes_expect (takes_pure rfl)

theorem takes_conditional : Takes (conditional inner) fun result taken =>
    .ofWord "if" :: taken = result.tokens := by
  refine takes_bind (faithful.expression 0) ?_
  rintro condition front rfl
  refine takes_expect (takes_bind (takes_block faithful) ?_)
  rintro body middle rfl
  refine takes_bind (takes_alternativesWithin faithful inner.bound) ?_
  rintro rest back rfl
  refine takes_pure ?_
  simp [Statement.tokens]

theorem takes_countingLoop (variableName : List Char) :
    Takes (countingLoop inner variableName) fun result taken =>
      .ofWord "for" :: .ofName variableName :: .ofSymbol "=" :: taken = result.tokens := by
  refine takes_bind (faithful.expression 0) ?_
  rintro first front rfl
  refine takes_expect (takes_bind (faithful.expression 0) ?_)
  rintro limit middle rfl
  apply takes_ifSkip
  · refine takes_bind (faithful.expression 0) ?_
    rintro step next rfl
    refine takes_expect (takes_bind (takes_blockToEnd faithful) ?_)
    rintro body back rfl
    refine takes_pure ?_
    simp [Statement.tokens]
  · refine takes_expect (takes_bind (takes_blockToEnd faithful) ?_)
    rintro body back rfl
    refine takes_pure ?_
    simp [Statement.tokens]

theorem takes_genericLoop (first : List Char) (others : List (List Char)) :
    Takes (genericLoop inner first others) fun result taken =>
      .ofWord "for" :: nameTokens (first :: others) ++ taken = result.tokens := by
  refine takes_expect (takes_bind (takes_expressions faithful) ?_)
  rintro values front rfl
  refine takes_expect (takes_bind (takes_blockToEnd faithful) ?_)
  rintro body back rfl
  refine takes_pure ?_
  simp [Statement.tokens]

theorem takes_loop : Takes (loop inner) fun result taken =>
    .ofWord "for" :: taken = result.tokens := by
  refine takes_bind (takes_listWithin takes_name inner.bound) ?_
  rintro ⟨first, others⟩ front rfl
  split
  case h_1 first same =>
    cases same
    exact takes_ifSkip (takes_countingLoop faithful first) (takes_genericLoop faithful first [])
  case h_2 first others _ same =>
    cases same
    exact takes_genericLoop faithful first others

theorem takes_localStatement : Takes (localStatement inner) fun result taken =>
    .ofWord "local" :: taken = result.tokens := by
  apply takes_ifSkip
  · refine takes_bind takes_name ?_
    rintro functionName front rfl
    refine takes_bind (takes_parameters inner.bound) ?_
    rintro taken middle rfl
    refine takes_bind (takes_blockToEnd faithful) ?_
    rintro body back rfl
    refine takes_pure ?_
    simp [Statement.tokens]
  · refine takes_bind (takes_listWithin takes_declared inner.bound) ?_
    rintro ⟨first, others⟩ front rfl
    apply takes_ifSkip
    · refine takes_bind (takes_expressions faithful) ?_
      rintro values back rfl
      refine takes_pure ?_
      simp [Statement.tokens]
    · refine takes_pure ?_
      simp [Statement.tokens]

theorem takes_assignment (place : Place) :
    Takes (assignment inner place) fun result taken =>
      place.tokens ++ taken = result.1.tokens ++ .ofSymbol "=" :: result.2.tokens := by
  apply takes_ifSkip
  · refine takes_bind (takes_primary faithful) ?_
    rintro next front rfl
    split
    case h_1 next =>
      refine takes_bind (faithful.assignment next) ?_
      rintro ⟨targets, values⟩ back spelled
      refine takes_pure ?_
      simp [Primary.tokens, Targets.tokens, spelled]
    case h_2 => exact takes_failure _
  · refine takes_expect (takes_bind (takes_expressions faithful) ?_)
    rintro values back rfl
    refine takes_pure ?_
    simp [Targets.tokens]

theorem takes_expressionStatement :
    Takes (expressionStatement inner) fun result taken => taken = result.tokens := by
  refine takes_bind (takes_primary faithful) ?_
  rintro first front rfl
  split
  case h_1 call => exact takes_pure (by simp [Primary.tokens, Statement.tokens])
  case h_2 place =>
    refine takes_bind (takes_assignment faithful place) ?_
    rintro ⟨targets, values⟩ back spelled
    exact takes_pure (by simpa [Primary.tokens, Statement.tokens] using spelled)
  case h_3 => exact takes_failure _

theorem takes_statement : Takes (statement inner) fun result taken => taken = result.tokens := by
  apply takes_ifSkip
  · exact takes_pure rfl
  apply takes_ifSkip
  · exact takes_conditional faithful
  apply takes_ifSkip
  · refine takes_bind (faithful.expression 0) ?_
    rintro condition front rfl
    refine takes_expect (takes_bind (takes_blockToEnd faithful) ?_)
    rintro body back rfl
    refine takes_pure ?_
    simp [Statement.tokens]
  apply takes_ifSkip
  · refine takes_bind (takes_blockToEnd faithful) ?_
    rintro body back rfl
    refine takes_pure ?_
    simp [Statement.tokens]
  apply takes_ifSkip
  · exact takes_loop faithful
  apply takes_ifSkip
  · refine takes_bind (takes_block faithful) ?_
    rintro body front rfl
    refine takes_expect (takes_bind (faithful.expression 0) ?_)
    rintro condition back rfl
    refine takes_pure ?_
    simp [Statement.tokens]
  apply takes_ifSkip
  · refine takes_bind (takes_path inner.bound) ?_
    rintro place front rfl
    refine takes_bind (takes_parameters inner.bound) ?_
    rintro taken middle rfl
    refine takes_bind (takes_blockToEnd faithful) ?_
    rintro body back rfl
    refine takes_pure ?_
    simp [Statement.tokens]
  apply takes_ifSkip
  · exact takes_localStatement faithful
  apply takes_ifSkip
  · exact takes_label
  apply takes_ifSkip
  · exact takes_pure rfl
  apply takes_ifSkip
  · refine takes_bind takes_name ?_
    rintro labelName front rfl
    exact takes_pure rfl
  · exact takes_expressionStatement faithful

theorem takes_returning : Takes (returning inner) fun result taken => taken = result.tokens := by
  have semicolon : Takes (skip (.ofSymbol ";")) fun found taken =>
      taken = semicolonTokens found := takes_skip _
  refine takes_expect (takes_peek fun next => ?_)
  split
  · refine takes_bind semicolon ?_
    rintro found front rfl
    refine takes_pure ?_
    simp [Block.tokens]
  · refine takes_bind (takes_expressions faithful) ?_
    rintro values front rfl
    refine takes_bind semicolon ?_
    rintro found back rfl
    refine takes_pure ?_
    simp [Block.tokens]

end Level

/-- Whatever number of levels there is, the readers take what they give. -/
theorem faithful_level (bound count : Nat) : Faithful (level bound count) := by
  induction count with
  | zero =>
    exact ⟨fun _ => takes_failure _, takes_failure _, takes_failure _, fun _ => takes_failure _⟩
  | succ count inductionHypothesis =>
    exact ⟨takes_expression inductionHypothesis, takes_statement inductionHypothesis,
      takes_returning inductionHypothesis, takes_assignment inductionHypothesis⟩

end Reading

/-- The block that is read from tokens is spelled by them. -/
theorem Block.tokens_of_ofTokens? {read : List Token} {block : Block}
    (spelled : Block.ofTokens? read = some block) : block.tokens = read := by
  unfold Block.ofTokens? at spelled
  split at spelled
  case h_1 chunk run =>
    cases spelled
    obtain ⟨taken, same, rfl⟩ := Reading.takes_block (Reading.faithful_level _ _) _ _ _ run
    rw [same, List.append_nil]
  case h_2 => cases spelled

end Lua

end LogPipeline
