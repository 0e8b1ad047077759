import LogPipeline.Proofs.Lua.Part

namespace LogPipeline

namespace Lua

/-!
# Scripts without comments

A text without comments spells its tokens: blanks stand anywhere between them,
every token stands alone, and none runs on into what is written after it.  This
is exactly what it takes for the text to be split into these tokens again, so a
text may be put together from tokens by looking at neighbours only.
-/

/-- Whether a comment stands between the tokens of letters. -/
def holdsComment (letters : List Char) : Bool :=
  (splitting.parts? letters).any fun parts => parts.any Part.isComment

/-- Letters that are tokens with nothing but blanks between them. -/
inductive Spells : List Char → List Token → Prop
  | nil : Spells [] []
  | blank {letter : Char} {rest : List Char} {read : List Token} :
      isBlank letter = true → Spells rest read → Spells (letter :: rest) read
  | token {token : Token} {rest : List Char} {read : List Token} :
      token.StandsAlone → token.EndsBefore rest → Spells rest read →
        Spells (token.letters ++ rest) (token :: read)

private theorem symbols_graphic : ∀ symbol ∈ symbols, ∀ letter ∈ symbol.toList,
    32 < letter.toNat ∧ letter.toNat < 127 := by
  have all : symbols.all (fun symbol => symbol.toList.all fun letter =>
      32 < letter.toNat && letter.toNat < 127) = true := by
    decide +kernel
  intro symbol listed letter member
  simpa using List.all_eq_true.mp (List.all_eq_true.mp all symbol listed) letter member

private theorem isBlank_of_graphic {letter : Char} (graphic : 32 < letter.toNat) :
    isBlank letter = false := by
  cases blank : isBlank letter with
  | false => rfl
  | true =>
    simp only [isBlank, Bool.or_eq_true, decide_eq_true_eq] at blank
    rcases blank with ((((rfl | rfl) | rfl) | rfl) | rfl) | rfl <;> revert graphic <;> decide

private theorem symbols_visible :
    ∀ symbol ∈ symbols, ∀ letter ∈ symbol.toList, isBlank letter = false := by
  intro symbol listed letter member
  exact isBlank_of_graphic (symbols_graphic symbol listed letter member).1

private theorem ne_of_isBlank {letter other : Char} (blank : isBlank letter = true)
    (visible : isBlank other = false) : letter ≠ other := by
  rintro rfl
  rw [blank] at visible
  cases visible

private theorem isNamePart_of_isBlank {letter : Char} (blank : isBlank letter = true) :
    isNamePart letter = false := by
  simp only [isBlank, Bool.or_eq_true, decide_eq_true_eq] at blank
  rcases blank with ((((rfl | rfl) | rfl) | rfl) | rfl) | rfl <;> decide

theorem graphic_of_between {first last letter : Char} (fromFirst : first ≤ letter)
    (upToLast : letter ≤ last) (lower : 32 < first.toNat) (upper : last.toNat < 127) :
    32 < letter.toNat ∧ letter.toNat < 127 :=
  ⟨Nat.lt_of_lt_of_le lower fromFirst, Nat.lt_of_le_of_lt upToLast upper⟩

theorem graphic_of_isDecimal {letter : Char} (digit : Digits.isDecimal letter = true) :
    32 < letter.toNat ∧ letter.toNat < 127 := by
  simp only [Digits.isDecimal, Bool.and_eq_true, decide_eq_true_eq] at digit
  exact graphic_of_between digit.1 digit.2 (by decide) (by decide)

theorem graphic_of_isNameStart {letter : Char} (start : isNameStart letter = true) :
    32 < letter.toNat ∧ letter.toNat < 127 := by
  simp only [isNameStart, Bool.or_eq_true, Bool.and_eq_true, decide_eq_true_eq] at start
  rcases start with (⟨fromA, toZ⟩ | ⟨fromA, toZ⟩) | rfl
  · exact graphic_of_between fromA toZ (by decide) (by decide)
  · exact graphic_of_between fromA toZ (by decide) (by decide)
  · decide

/-- Every token begins with a printing character of ASCII. -/
theorem graphic_of_readToken? {first : Char} {rest after : List Char} {token : Token}
    (taken : readToken? first rest = some (token, after)) :
    32 < first.toNat ∧ first.toNat < 127 := by
  rw [readToken?_eq_some_iff, TakenAt] at taken
  split at taken
  · rename_i isName
    exact graphic_of_isNameStart isName
  split at taken
  · rename_i isNumber
    simp only [startsNumber, Bool.or_eq_true, Bool.and_eq_true, decide_eq_true_eq] at isNumber
    rcases isNumber with digit | ⟨rfl, -⟩
    · exact graphic_of_isDecimal digit
    · decide
  split at taken
  · rename_i isQuote
    rcases isQuote with rfl | rfl <;> decide
  split at taken
  · rename_i isBracket
    subst isBracket
    decide
  · rcases symbolAt_eq_ok_iff.mp taken with ⟨-, whole, ⟨symbol, listed, spelled⟩, -⟩
    rcases List.exists_cons_of_ne_nil (symbol_ne_nil symbol listed) with ⟨head, tail, same⟩
    rw [← spelled, same] at whole
    rw [← (List.cons.inj whole).1]
    exact symbols_graphic symbol listed head (by simp [same])

/-- No token begins with a blank. -/
theorem visible_of_readToken? {first : Char} {rest after : List Char} {token : Token}
    (taken : readToken? first rest = some (token, after)) : isBlank first = false :=
  isBlank_of_graphic (graphic_of_readToken? taken).1

/-- No letter that goes on with a numeral is a blank. -/
private theorem visible_of_continuesNumeral {whole : List Char} {afterMark : Bool} {letter : Char}
    (fits : continuesNumeral (exponentMarks whole) afterMark letter = true) :
    isBlank letter = false := by
  cases blank : isBlank letter with
  | false => rfl
  | true =>
    have notPart := isNamePart_of_isBlank blank
    have noMark : letter ∉ exponentMarks whole := by
      unfold exponentMarks
      split <;> simp [ne_of_isBlank blank, isBlank]
    have noDigit : Digits.isHexadecimal letter = false := by
      cases digit : Digits.isHexadecimal letter with
      | false => rfl
      | true => exact absurd (isNamePart_of_isHexadecimal digit) (by simp [notPart])
    have noPlus := ne_of_isBlank blank (show isBlank '+' = false by decide)
    have noDash := ne_of_isBlank blank (show isBlank '-' = false by decide)
    have noPoint := ne_of_isBlank blank (show isBlank '.' = false by decide)
    simp [continuesNumeral, noMark, noDigit, noPlus, noDash, noPoint] at fits

private theorem visible_of_numeralTail (whole : List Char) (afterMark : Bool)
    (letters : List Char) :
    ∀ letter ∈ (numeralTail (exponentMarks whole) afterMark letters).1, isBlank letter = false := by
  have noSign := exponentMarks_noSign whole
  induction letters generalizing afterMark with
  | nil =>
    intro letter member
    cases member
  | cons first rest inductionHypothesis =>
    rw [numeralTail_cons noSign]
    split
    · rename_i fits
      rw [List.forall_mem_cons]
      exact ⟨visible_of_continuesNumeral fits, inductionHypothesis _⟩
    · intro letter member
      cases member

private theorem visible_of_numeralParts {letters inside after : List Char}
    (taken : numeralParts letters = (inside, after)) :
    ∀ letter ∈ inside, isBlank letter = false := by
  rw [numeralParts_eq] at taken
  rcases Prod.mk.inj taken with ⟨rfl, -⟩
  rw [List.forall_mem_append]
  refine ⟨?_, visible_of_numeralTail _ _ _⟩
  rw [baseSize]
  split
  · rename_i hexadecimal
    rcases isHexadecimalStart_iff.mp hexadecimal with ⟨mark, rest, rfl, isMark⟩
    change ∀ letter ∈ ['0', mark], isBlank letter = false
    rw [List.forall_mem_cons, List.forall_mem_singleton]
    rcases isMark with rfl | rfl <;> exact ⟨rfl, rfl⟩
  · intro letter member
    cases member

/-- Only strings hold blanks. -/
theorem visible_of_standsAlone {token : Token} (alone : token.StandsAlone)
    (noString : token.kind ≠ .string) : ∀ letter ∈ token.letters, isBlank letter = false := by
  rcases alone with ⟨first, tail, spelled, taken⟩
  rw [readToken?_eq_some_iff, TakenAt] at taken
  split at taken
  · rcases Prod.mk.inj taken with ⟨rfl, -⟩
    intro letter member
    have part := passes_of_mem_takeWhile letter member
    cases blank : isBlank letter with
    | false => rfl
    | true =>
      rw [isNamePart_of_isBlank blank] at part
      cases part
  split at taken
  · exact visible_of_numeralParts (numeralAt_eq_ok_iff.mp taken).2.1
  split at taken
  · rcases taken with ⟨inside, rfl, -, -⟩
    exact absurd rfl noString
  split at taken
  · rcases bracketAt_eq_ok_iff.mp taken with ⟨level, inside, rfl, -, -⟩ | ⟨rfl, -, -⟩
    · exact absurd rfl noString
    · exact List.forall_mem_singleton.mpr rfl
  · rcases (symbolAt_eq_ok_iff.mp taken).2.2.1 with ⟨symbol, listed, same⟩
    rw [← same]
    exact symbols_visible symbol listed

/-- No blank goes on with a token. -/
theorem Token.goesOn_of_isBlank (token : Token) {letter : Char}
    (blank : isBlank letter = true) : token.goesOn letter = false := by
  have notPart := isNamePart_of_isBlank blank
  have noPoint := ne_of_isBlank blank (show isBlank '.' = false by decide)
  have noPlus := ne_of_isBlank blank (show isBlank '+' = false by decide)
  have noDash := ne_of_isBlank blank (show isBlank '-' = false by decide)
  have noBracket := ne_of_isBlank blank (show isBlank '[' = false by decide)
  have noEquals := ne_of_isBlank blank (show isBlank '=' = false by decide)
  have noDigit : Digits.isDecimal letter = false := by
    simp only [isNamePart, Bool.or_eq_false_iff] at notPart
    exact notPart.2
  have noSymbol : symbols.any (fun symbol => symbol.toList = token.letters ++ [letter]) = false := by
    rw [List.any_eq_false]
    intro symbol listed same
    have visible := symbols_visible symbol listed letter (by simp [of_decide_eq_true same])
    rw [blank] at visible
    cases visible
  unfold Token.goesOn
  cases token.kind with
  | name => exact notPart
  | keyword => exact notPart
  | number => simp [goesOnNumber, notPart, noPoint, noPlus, noDash]
  | string => rfl
  | symbol => simp only [goesOnSymbol, noSymbol, noDash, noBracket, noEquals, noDigit,
      decide_false, Bool.or_self, Bool.and_false]

theorem Token.endsBefore_blank (token : Token) {letter : Char} (blank : isBlank letter = true)
    (rest : List Char) : token.EndsBefore (letter :: rest) :=
  Token.endsBefore_cons.mpr (token.goesOn_of_isBlank blank)

/-- A token that stands alone is the part at its place, whatever follows it
without going on with it. -/
theorem partAt?_of_standsAlone {token : Token} {rest : List Char}
    (alone : token.StandsAlone) (ends : token.EndsBefore rest) :
    ∃ first tail, token.letters = first :: tail ∧
      splitting.partAt? first (tail ++ rest) = some (.token token, rest) := by
  rcases alone with ⟨first, tail, spelled, taken⟩
  rcases (readToken?_append_iff spelled).mpr ⟨taken, ends⟩ with ⟨read, noComment⟩
  refine ⟨first, tail, spelled, ?_⟩
  rw [spelled, List.cons_append] at noComment
  rw [Splitter.partAt?_of_noComment noComment, if_neg (by simp [visible_of_readToken? taken])]
  simp only [splitting, read, Option.map_some]

theorem parts?_of_standsAlone {token : Token} {rest : List Char}
    (alone : token.StandsAlone) (ends : token.EndsBefore rest) :
    splitting.parts? (token.letters ++ rest) =
      (splitting.parts? rest).map (.token token :: ·) := by
  rcases partAt?_of_standsAlone alone ends with ⟨first, tail, spelled, taken⟩
  rw [spelled, List.cons_append, Splitter.parts?_cons, taken, Option.bind_some]

/-- A token among the parts stands alone and ends before what follows it. -/
theorem standsAlone_of_partAt? {first : Char} {rest after : List Char} {token : Token}
    (taken : splitting.partAt? first rest = some (.token token, after)) :
    token.StandsAlone ∧ token.EndsBefore after := by
  rcases Splitter.token_of_partAt? taken with ⟨noComment, -, read⟩
  rcases splitting.whole read with ⟨whole, nonempty⟩
  rcases List.exists_cons_of_ne_nil nonempty with ⟨head, tail, spelled⟩
  rw [spelled, List.cons_append] at whole
  rcases List.cons.inj whole with ⟨rfl, rfl⟩
  rw [← List.cons_append, ← spelled] at noComment
  rcases (readToken?_append_iff spelled).mp ⟨read, noComment⟩ with ⟨alone, ends⟩
  exact ⟨⟨head, tail, spelled, alone⟩, ends⟩

theorem parts?_of_spells {letters : List Char} {read : List Token} (spells : Spells letters read) :
    ∃ parts, splitting.parts? letters = some parts ∧
      (∀ part ∈ parts, part.isComment = false) ∧ parts.filterMap Part.token? = read := by
  induction spells with
  | nil => exact ⟨[], Splitter.parts?_nil, by simp, rfl⟩
  | @blank letter rest read isBlank spells inductionHypothesis =>
    rcases inductionHypothesis with ⟨parts, split, noComment, same⟩
    refine ⟨.blank letter :: parts, ?_, ?_, ?_⟩
    · rw [Splitter.parts?_of_isBlank isBlank, split, Option.map_some]
    · simpa [Part.isComment] using noComment
    · rw [List.filterMap_cons_none rfl, same]
  | @token token rest read alone ends spells inductionHypothesis =>
    rcases inductionHypothesis with ⟨parts, split, noComment, same⟩
    refine ⟨.token token :: parts, ?_, ?_, ?_⟩
    · rw [parts?_of_standsAlone alone ends, split, Option.map_some]
    · simpa [Part.isComment] using noComment
    · exact congrArg (token :: ·) same

theorem spells_of_parts? {letters : List Char} {parts : List Part}
    (split : splitting.parts? letters = some parts)
    (noComment : ∀ part ∈ parts, part.isComment = false) :
    Spells letters (parts.filterMap Part.token?) := by
  induction parts generalizing letters with
  | nil =>
    rw [Splitter.parts?_eq_some_nil_iff.mp split]
    exact .nil
  | cons part parts inductionHypothesis =>
    rcases Splitter.parts?_eq_some_cons_iff.mp split with
      ⟨first, rest, after, rfl, taken, splitRest⟩
    have spells := inductionHypothesis splitRest fun other member =>
      noComment other (List.mem_cons_of_mem part member)
    have whole := (Splitter.append_of_partAt? taken).1
    cases part with
    | blank letter =>
      rw [← whole]
      exact .blank (Splitter.blank_of_partAt? taken).2.2 spells
    | lineComment text => cases noComment _ List.mem_cons_self
    | longComment text => cases noComment _ List.mem_cons_self
    | token token =>
      rcases standsAlone_of_partAt? taken with ⟨alone, ends⟩
      rw [← whole]
      exact .token alone ends spells

/-- A text spells the tokens into which it is split, if it holds no comment,
and no others. -/
theorem spells_iff {letters : List Char} {read : List Token} :
    Spells letters read ↔ tokens letters = .ok read ∧ holdsComment letters = false := by
  rw [tokens_eq_ok_iff, Splitter.tokens?, Option.map_eq_some_iff, holdsComment]
  constructor
  · intro spells
    rcases parts?_of_spells spells with ⟨parts, split, noComment, same⟩
    refine ⟨⟨parts, split, same⟩, ?_⟩
    rw [split, Option.any_some, List.any_eq_false]
    simpa using noComment
  · rintro ⟨⟨parts, split, rfl⟩, noComment⟩
    rw [split, Option.any_some, List.any_eq_false] at noComment
    exact spells_of_parts? split (by simpa using noComment)

end Lua

end LogPipeline
