import Mathlib.Data.List.Chain
import LogPipeline.Lua.Compact
import LogPipeline.Proofs.Lua.Spelling

namespace LogPipeline

namespace Lua

/-!
# Scripts on one line are split into the same tokens

Every token of a script stands alone, and so does what becomes of it on one
line.  A space is left out between two tokens exactly where the first ends
before the second, so the joined letters spell the tokens from which they were
made.  On one line no string holds a break, and joining the tokens of such a
script again changes nothing.
-/

/-- The letters of a string: a quote and the rest of a short string, or a long
bracket. -/
inductive StringLetters : List Char → Prop
  | short {quote : Char} {inside : List Char} :
      quote = '"' ∨ quote = '\'' → isStringRest quote .plain inside = true →
        StringLetters (quote :: inside)
  | long {level : Nat} {inside : List Char} :
      untilClosing? level inside = some (inside, []) → StringLetters (longLetters level inside)

theorem standsAlone_of_stringLetters {letters : List Char} (isString : StringLetters letters) :
    Token.StandsAlone { kind := .string, letters := letters } := by
  cases isString with
  | @short quote inside isQuote isRest =>
    refine ⟨quote, inside, rfl, ?_⟩
    have noName : isNameStart quote = false := by rcases isQuote with rfl | rfl <;> decide
    have noNumber : startsNumber quote inside = false := by
      rcases isQuote with rfl | rfl <;> simp [startsNumber, Digits.isDecimal]
    rw [readToken?_eq_some_iff, TakenAt, if_neg (by simp [noName]), if_neg (by simp [noNumber]),
      if_pos isQuote]
    exact ⟨inside, rfl, List.append_nil inside, isRest⟩
  | @long level inside closed =>
    refine ⟨'[', List.replicate level '=' ++ '[' :: inside, rfl, ?_⟩
    have noName : isNameStart '[' = false := by decide
    have noNumber (rest : List Char) : startsNumber '[' rest = false := by
      simp [startsNumber, Digits.isDecimal]
    rw [readToken?_eq_some_iff, TakenAt, if_neg (by simp [noName]), if_neg (by simp [noNumber]),
      if_neg (by decide), if_pos rfl, bracketAt_eq_ok_iff]
    exact Or.inl ⟨level, inside, rfl, by rw [List.append_nil]; rfl, closed⟩

theorem stringLetters_of_standsAlone {token : Token} (alone : token.StandsAlone)
    (kind : token.kind = .string) : StringLetters token.letters := by
  rcases alone with ⟨first, tail, spelled, taken⟩
  rw [readToken?_eq_some_iff, TakenAt] at taken
  split at taken
  · rcases Prod.mk.inj taken with ⟨rfl, -⟩
    simp only [] at kind
    split at kind <;> cases kind
  · split at taken
    · rw [(numeralAt_eq_ok_iff.mp taken).1] at kind
      cases kind
    · split at taken
      · rename_i isQuote
        rcases taken with ⟨inside, rfl, -, isRest⟩
        exact .short isQuote isRest
      · split at taken
        · rcases bracketAt_eq_ok_iff.mp taken with ⟨level, inside, rfl, -, closed⟩ | ⟨rfl, -, -⟩
          · exact .long closed
          · cases kind
        · rw [(symbolAt_eq_ok_iff.mp taken).1] at kind
          cases kind

/-! ## Strings on one line -/

theorem isStringRest_longInside (broken : Option Char) (body : List Char) :
    isStringRest '"' .plain (longInside broken body ++ ['"']) = true := by
  induction body generalizing broken with
  | nil => rfl
  | cons letter rest inductionHypothesis =>
    unfold longInside
    split
    · split
      · split
        · exact inductionHypothesis (some letter)
        · exact inductionHypothesis none
      · exact inductionHypothesis (some letter)
    · rename_i noBreak
      split
      · exact inductionHypothesis none
      · rename_i noEscape
        split
        · exact inductionHypothesis none
        · rename_i noQuote
          rw [List.cons_append, isStringRest, stringStep, plainStep, if_neg noBreak,
            if_neg noEscape, if_neg noQuote]
          exact inductionHypothesis none

theorem noBreak_longInside (broken : Option Char) (body : List Char) :
    (longInside broken body).any isBreak = false := by
  induction body generalizing broken with
  | nil => rfl
  | cons letter rest inductionHypothesis =>
    unfold longInside
    split
    · split
      · split
        · exact inductionHypothesis (some letter)
        · exact inductionHypothesis none
      · exact inductionHypothesis (some letter)
    · rename_i noBreak
      split
      · exact inductionHypothesis none
      · split
        · exact inductionHypothesis none
        · rw [List.any_cons, Bool.or_eq_false_iff]
          exact ⟨by simpa using noBreak, inductionHypothesis none⟩

theorem foldShort_broken_cons (first letter : Char) (rest : List Char) :
    foldShort (.broken first) (letter :: rest) =
      if isBreak letter && letter ≠ first then foldShort .plain rest
      else foldShort .plain (letter :: rest) := rfl

theorem foldShort_skipping_cons (letter : Char) (rest : List Char) :
    foldShort .skipping (letter :: rest) =
      if isBlank letter then foldShort .skipping rest
      else foldShort .plain (letter :: rest) := rfl

/-- A folded string is a string up to the same closing quote: a backslash is
held back until the letter after it is known, and what is left of a break or of
`\z` begins outside any escape. -/
theorem isStringRest_foldShort {quote : Char} {state : StringState} {rest : List Char}
    (isRest : isStringRest quote state rest = true) :
    isStringRest quote .plain (foldShort state rest) = true ∧
      (foldShort state rest).any isBreak = false := by
  induction rest generalizing state with
  | nil => cases isRest
  | cons letter rest inductionHypothesis =>
    have plain (isPlain : isStringRest quote .plain (letter :: rest) = true) :
        isStringRest quote .plain (foldShort .plain (letter :: rest)) = true ∧
          (foldShort .plain (letter :: rest)).any isBreak = false := by
      rw [isStringRest_plain_cons] at isPlain
      split at isPlain
      · cases isPlain
      · rename_i noBreak
        rw [foldShort]
        split at isPlain
        · rename_i escape
          rw [if_pos escape]
          exact inductionHypothesis isPlain
        · rename_i noEscape
          rw [if_neg noEscape, isStringRest_plain_cons, if_neg noBreak, if_neg noEscape,
            List.any_cons, Bool.or_eq_false_iff]
          split at isPlain
          · rename_i closes
            rw [if_pos closes, List.isEmpty_iff.mp isPlain]
            exact ⟨rfl, by simpa using noBreak, rfl⟩
          · rename_i open'
            rw [if_neg open']
            rcases inductionHypothesis isPlain with ⟨isFolded, noBreakAfter⟩
            exact ⟨isFolded, by simpa using noBreak, noBreakAfter⟩
    cases state with
    | plain => exact plain isRest
    | escaped =>
      rw [isStringRest_escaped_cons] at isRest
      rw [foldShort]
      split at isRest
      · rename_i isLineBreak
        rw [if_pos isLineBreak]
        exact inductionHypothesis isRest
      · rename_i noBreak
        rw [if_neg noBreak]
        split at isRest
        · rename_i skips
          rw [if_pos skips]
          exact inductionHypothesis isRest
        · rename_i noSkip
          rw [if_neg noSkip]
          rcases inductionHypothesis isRest with ⟨isFolded, noBreakAfter⟩
          refine ⟨?_, ?_⟩
          · rw [isStringRest_plain_cons, if_neg (by decide), if_pos rfl,
              isStringRest_escaped_cons, if_neg noBreak, if_neg noSkip]
            exact isFolded
          · rw [List.any_cons, List.any_cons, noBreakAfter]
            simpa [isBreak] using noBreak
    | broken first =>
      rw [isStringRest_broken_cons] at isRest
      rw [foldShort_broken_cons]
      split at isRest
      · rename_i pairs
        rw [if_pos pairs]
        exact inductionHypothesis isRest
      · rename_i alone
        rw [if_neg alone]
        exact plain isRest
    | skipping =>
      rw [isStringRest_skipping_cons] at isRest
      rw [foldShort_skipping_cons]
      split at isRest
      · rename_i blank
        rw [if_pos blank]
        exact inductionHypothesis isRest
      · rename_i visible
        rw [if_neg visible]
        exact plain isRest

/-- The letters of a string on one line are those of a short string between
the same quotes, or between double quotes, and hold no break. -/
theorem stringLetters_singleLine {token : Token} (isString : StringLetters token.letters)
    (kind : token.kind = .string) :
    StringLetters (singleLineLetters token) ∧ (singleLineLetters token).any isBreak = false := by
  cases spans : token.letters.any isBreak with
  | false =>
    have same : singleLineLetters token = token.letters := by simp [singleLineLetters, spans]
    rw [same]
    exact ⟨isString, spans⟩
  | true =>
    rw [singleLineLetters, if_pos (by simp [kind, spans])]
    generalize letters : token.letters = written at isString
    cases isString with
    | @short quote inside isQuote isRest =>
      have noEscape : quote ≠ '\\' := by rcases isQuote with rfl | rfl <;> decide
      have noBreak : isBreak quote = false := by rcases isQuote with rfl | rfl <;> decide
      have noBracket : quote ≠ '[' := by rcases isQuote with rfl | rfl <;> decide
      rcases isStringRest_foldShort isRest with ⟨isFolded, noBreakInside⟩
      split
      · rename_i inner same
        exact absurd (List.cons.inj same).1 noBracket
      · rw [foldShort, if_neg noEscape, List.any_cons, noBreak]
        exact ⟨.short isQuote isFolded, noBreakInside⟩
    | @long level inside closed =>
      refine ⟨.short (Or.inl rfl) (isStringRest_longInside none _), ?_⟩
      change ('"' :: (longInside none _ ++ ['"'])).any isBreak = false
      rw [List.any_cons, List.any_append, noBreak_longInside]
      rfl

theorem singleLine_of_kind {token : Token} (kind : token.kind ≠ .string) :
    singleLine token = token := by
  simp [singleLine, singleLineLetters, kind]

/-- A token on one line holds no break. -/
theorem noBreak_singleLine {token : Token} (alone : token.StandsAlone) :
    (singleLineLetters token).any isBreak = false := by
  by_cases kind : token.kind = .string
  · exact (stringLetters_singleLine (stringLetters_of_standsAlone alone kind) kind).2
  · have same : singleLineLetters token = token.letters := by simp [singleLineLetters, kind]
    rw [same, List.any_eq_false]
    intro letter member isLineBreak
    have visible := visible_of_standsAlone alone kind letter member
    simp only [isBreak, Bool.or_eq_true, decide_eq_true_eq] at isLineBreak
    rcases isLineBreak with rfl | rfl <;> cases visible

/-- A token stands alone on one line as well. -/
theorem standsAlone_singleLine {token : Token} (alone : token.StandsAlone) :
    (singleLine token).StandsAlone := by
  by_cases kind : token.kind = .string
  · have isString := (stringLetters_singleLine (stringLetters_of_standsAlone alone kind) kind).1
    have standsAlone := standsAlone_of_stringLetters isString
    rw [← kind] at standsAlone
    exact standsAlone
  · rw [singleLine_of_kind kind]
    exact alone

/-- A token on one line stays as it is. -/
theorem singleLine_idempotent {token : Token} (alone : token.StandsAlone) :
    singleLine (singleLine token) = singleLine token := by
  by_cases kind : token.kind = .string
  · have noBreak := (stringLetters_singleLine (stringLetters_of_standsAlone alone kind) kind).2
    have same : singleLineLetters (singleLine token) = (singleLine token).letters := by
      rw [singleLineLetters, if_neg]
      rw [singleLine]
      simp [noBreak]
    rw [singleLine, same]
  · rw [singleLine_of_kind kind, singleLine_of_kind kind]

/-! ## Joining -/

/-- The tokens of a script stand alone. -/
theorem standsAlone_of_tokens {letters : List Char} {read : List Token}
    (split : tokens letters = .ok read) : ∀ token ∈ read, token.StandsAlone := by
  rw [tokens_eq_ok_iff, Splitter.tokens?, Option.map_eq_some_iff] at split
  rcases split with ⟨parts, split, rfl⟩
  induction parts generalizing letters with
  | nil => simp
  | cons part parts inductionHypothesis =>
    rcases Splitter.parts?_eq_some_cons_iff.mp split with ⟨first, rest, after, rfl, taken, splitRest⟩
    intro token member
    rcases List.mem_filterMap.mp member with ⟨found, listed, isToken⟩
    rcases List.mem_cons.mp listed with rfl | inRest
    · cases found <;> cases isToken
      exact (standsAlone_of_partAt? taken).1
    · exact inductionHypothesis splitRest token (List.mem_filterMap.mpr ⟨found, inRest, isToken⟩)

theorem Token.StandsAlone.ne_nil {token : Token} (alone : token.StandsAlone) :
    token.letters ≠ [] := by
  rcases alone with ⟨first, tail, spelled, -⟩
  simp [spelled]

private theorem filterMap_token (token : Token) (parts : List Part) :
    (Part.token token :: parts).filterMap Part.token? = token :: parts.filterMap Part.token? := rfl

private theorem length_tokens_le (parts : List Part) :
    ((parts.filterMap Part.token?).flatMap Token.letters).length ≤
      (parts.flatMap Part.letters).length := by
  induction parts with
  | nil => exact Nat.le_refl 0
  | cons part parts inductionHypothesis =>
    rw [List.flatMap_cons, List.length_append]
    cases part with
    | token token =>
      rw [filterMap_token, List.flatMap_cons, List.length_append]
      exact Nat.add_le_add_left inductionHypothesis _
    | blank letter => exact Nat.le_add_left_of_le inductionHypothesis
    | lineComment text => exact Nat.le_add_left_of_le inductionHypothesis
    | longComment text => exact Nat.le_add_left_of_le inductionHypothesis

/-- Parts that are no longer than the tokens among them are nothing but tokens. -/
private theorem eq_map_token {parts : List Part}
    (short : (parts.flatMap Part.letters).length ≤
      ((parts.filterMap Part.token?).flatMap Token.letters).length) :
    parts = (parts.filterMap Part.token?).map .token := by
  induction parts with
  | nil => rfl
  | cons part parts inductionHypothesis =>
    have notLonger := length_tokens_le parts
    rw [List.flatMap_cons, List.length_append] at short
    cases part with
    | token token =>
      rw [filterMap_token, List.flatMap_cons, List.length_append] at short
      exact congrArg (Part.token token :: ·) (inductionHypothesis (Nat.le_of_add_le_add_left short))
    | blank letter =>
      change 1 + _ ≤ _ at short
      rw [List.filterMap_cons_none rfl] at short
      omega
    | lineComment text =>
      change text.length + 2 + _ ≤ _ at short
      rw [List.filterMap_cons_none rfl] at short
      omega
    | longComment text =>
      change text.length + 2 + _ ≤ _ at short
      rw [List.filterMap_cons_none rfl] at short
      omega

/-- A space is left out exactly between a token and letters before which it ends. -/
theorem needsSpace_eq_false_iff {first second : Token} (firstAlone : first.StandsAlone)
    (secondAlone : second.StandsAlone) :
    needsSpace first second = false ↔ first.EndsBefore second.letters := by
  constructor
  · intro together
    rw [needsSpace] at together
    split at together
    · rename_i read split
      have same : read = [first, second] := by simpa using together
      subst same
      rw [tokens_eq_ok_iff, Splitter.tokens?, Option.map_eq_some_iff] at split
      rcases split with ⟨parts, split, areTokens⟩
      have whole := Splitter.flatMap_letters_of_parts? split
      have onlyTokens : parts = (parts.filterMap Part.token?).map .token :=
        eq_map_token (by simp [whole, areTokens])
      rw [areTokens] at onlyTokens
      subst onlyTokens
      rcases Splitter.parts?_eq_some_cons_iff.mp split with ⟨head, rest, after, -, taken, splitRest⟩
      have sameAfter := Splitter.flatMap_letters_of_parts? splitRest
      have ends := (standsAlone_of_partAt? taken).2
      rw [← sameAfter] at ends
      simpa [Part.letters] using ends
    · cases together
  · intro ends
    have spells : Spells (first.letters ++ (second.letters ++ [])) [first, second] :=
      .token firstAlone (by rwa [List.append_nil])
        (.token secondAlone second.endsBefore_nil .nil)
    rw [List.append_nil] at spells
    rw [needsSpace, (spells_iff.mp spells).1]
    simp

theorem joined_cons (token : Token) (rest : List Token) :
    ∃ after, joined (token :: rest) = token.letters ++ after := by
  cases rest with
  | nil => exact ⟨[], (List.append_nil _).symm⟩
  | cons second rest => exact ⟨_, rfl⟩

/-- A token ends before the token that is joined to it, with a space where they need one. -/
theorem endsBefore_joined {first second : Token} (firstAlone : first.StandsAlone)
    (secondAlone : second.StandsAlone) (rest : List Token) :
    first.EndsBefore
      ((if needsSpace first second then [' '] else []) ++ joined (second :: rest)) := by
  cases apart : needsSpace first second with
  | true => exact first.endsBefore_blank rfl _
  | false =>
    have ends := (needsSpace_eq_false_iff firstAlone secondAlone).mp apart
    rcases joined_cons second rest with ⟨after, same⟩
    rw [same]
    exact (Token.endsBefore_append secondAlone.ne_nil after).mpr ends

/-- Joined tokens are spelled by what they are joined to. -/
theorem spells_joined {read : List Token} (alone : ∀ token ∈ read, token.StandsAlone) :
    Spells (joined read) read := by
  induction read with
  | nil => exact .nil
  | cons first rest inductionHypothesis =>
    have firstAlone := alone first List.mem_cons_self
    have restAlone : ∀ token ∈ rest, token.StandsAlone :=
      fun token member => alone token (List.mem_cons_of_mem first member)
    have spells := inductionHypothesis restAlone
    cases rest with
    | nil =>
      have spellsOne := Spells.token firstAlone first.endsBefore_nil .nil
      rwa [List.append_nil] at spellsOne
    | cons second rest =>
      have ends := endsBefore_joined firstAlone (restAlone second List.mem_cons_self) rest
      rw [joined]
      refine .token firstAlone ends ?_
      cases needsSpace first second with
      | true => exact .blank rfl spells
      | false => exact spells

theorem standsAlone_map_singleLine {read : List Token}
    (alone : ∀ token ∈ read, token.StandsAlone) :
    ∀ token ∈ read.map singleLine, token.StandsAlone := by
  intro token member
  rcases List.mem_map.mp member with ⟨found, listed, rfl⟩
  exact standsAlone_singleLine (alone found listed)

/-- A script on one line spells the tokens from which it was made, each on one line. -/
theorem spells_compactLetters {read : List Token} (alone : ∀ token ∈ read, token.StandsAlone) :
    Spells (compactLetters read) (read.map singleLine) :=
  spells_joined (standsAlone_map_singleLine alone)

/-- Tokens that need no space between neighbours are joined as they are. -/
theorem joined_of_isChain {read : List Token}
    (apart : read.IsChain fun first second => needsSpace first second = false) :
    joined read = read.flatMap Token.letters := by
  induction apart with
  | nil => rfl
  | singleton token => exact (List.flatMap_singleton Token.letters token).symm
  | cons_cons noSpace _ inductionHypothesis =>
    rw [joined, inductionHypothesis, noSpace, List.flatMap_cons]
    rfl

/-- Letters without breaks hold neither kind of break. -/
theorem break_notMem {letters : List Char} (noBreak : letters.any isBreak = false) :
    '\n' ∉ letters ∧ '\r' ∉ letters :=
  ⟨fun member => absurd rfl (List.any_eq_false.mp noBreak '\n' member),
    fun member => absurd rfl (List.any_eq_false.mp noBreak '\r' member)⟩

theorem noBreak_joined {read : List Token}
    (noBreaks : ∀ token ∈ read, token.letters.any isBreak = false) :
    (joined read).any isBreak = false := by
  induction read with
  | nil => rfl
  | cons first rest inductionHypothesis =>
    have noBreakRest := inductionHypothesis fun token member =>
      noBreaks token (List.mem_cons_of_mem first member)
    cases rest with
    | nil => exact noBreaks first List.mem_cons_self
    | cons second rest =>
      rw [joined, List.any_append, List.any_append, noBreaks first List.mem_cons_self, noBreakRest]
      split <;> rfl

/-- A script on one line holds no break. -/
theorem noBreak_compactLetters {read : List Token} (alone : ∀ token ∈ read, token.StandsAlone) :
    (compactLetters read).any isBreak = false := by
  apply noBreak_joined
  intro token member
  rcases List.mem_map.mp member with ⟨found, listed, rfl⟩
  exact noBreak_singleLine (alone found listed)

/-- Tokens that are on one line already are only joined. -/
theorem compactLetters_map_singleLine {read : List Token}
    (alone : ∀ token ∈ read, token.StandsAlone) :
    compactLetters (read.map singleLine) = compactLetters read := by
  have same : (read.map singleLine).map singleLine = read.map singleLine := by
    rw [List.map_map]
    exact List.map_congr_left fun token member => singleLine_idempotent (alone token member)
  rw [compactLetters, same, compactLetters]

/-! ## The end of a line -/

/-- The last letter of a short string is its quote. -/
theorem getLast?_of_isStringRest {quote : Char} {state : StringState} {inside : List Char}
    (isRest : isStringRest quote state inside = true) : inside.getLast? = some quote := by
  induction inside generalizing state with
  | nil => cases isRest
  | cons letter rest inductionHypothesis =>
    rw [isStringRest] at isRest
    split at isRest
    · cases isRest
    · rename_i closes
      have isQuote : letter = quote := by
        cases state <;> grind [stringStep, plainStep]
      rw [List.isEmpty_iff.mp isRest, isQuote, List.getLast?_singleton]
    · have later := inductionHypothesis isRest
      rw [List.getLast?_cons, later, Option.getD_some]

/-- No token ends with a blank. -/
theorem visible_last_of_standsAlone {token : Token} (alone : token.StandsAlone) :
    ∀ letter ∈ token.letters.getLast?, isBlank letter = false := by
  intro letter last
  by_cases isString : token.kind = .string
  · have spelled := stringLetters_of_standsAlone alone isString
    generalize token.letters = letters at last spelled
    cases spelled with
    | @short quote inside isQuote isRest =>
      rw [List.getLast?_cons, getLast?_of_isStringRest isRest, Option.getD_some,
        Option.mem_some] at last
      rw [← last]
      rcases isQuote with rfl | rfl <;> rfl
    | @long level inside closed =>
      rcases closing_of_untilClosing? closed with ⟨body, rfl⟩
      have ends : longLetters level (body ++ ']' :: closingTail level) =
          longLetters level (body ++ ']' :: List.replicate level '=') ++ [']'] := by
        rw [longLetters_append, closingTail, List.append_assoc, List.cons_append]
      rw [ends, List.getLast?_concat, Option.mem_some] at last
      rw [← last]
      rfl
  · exact visible_of_standsAlone alone isString letter (List.mem_of_getLast? last)

theorem joined_eq_nil_iff {read : List Token} (alone : ∀ token ∈ read, token.StandsAlone) :
    joined read = [] ↔ read = [] := by
  constructor
  · intro nothing
    cases read with
    | nil => rfl
    | cons first rest =>
      rcases joined_cons first rest with ⟨after, same⟩
      rw [same, List.append_eq_nil_iff] at nothing
      exact absurd nothing.1 (alone first List.mem_cons_self).ne_nil
  · rintro rfl
    rfl

/-- Joined tokens end as the last of them does. -/
theorem visible_last_of_joined {read : List Token} (alone : ∀ token ∈ read, token.StandsAlone) :
    ∀ letter ∈ (joined read).getLast?, isBlank letter = false := by
  induction read with
  | nil =>
    rintro _ ⟨⟩
  | cons first rest inductionHypothesis =>
    rcases List.forall_mem_cons.mp alone with ⟨firstAlone, restAlone⟩
    cases rest with
    | nil => exact visible_last_of_standsAlone firstAlone
    | cons second rest =>
      have notEmpty : joined (second :: rest) ≠ [] :=
        mt (joined_eq_nil_iff restAlone).mp (List.cons_ne_nil second rest)
      rw [joined, List.getLast?_append_of_ne_nil, List.getLast?_append_of_ne_nil _ notEmpty]
      · exact inductionHypothesis restAlone
      · exact List.append_ne_nil_of_right_ne_nil _ notEmpty

/-- A script on one line is nothing only if it has no tokens. -/
theorem compactLetters_eq_nil_iff {read : List Token}
    (alone : ∀ token ∈ read, token.StandsAlone) : compactLetters read = [] ↔ read = [] := by
  rw [compactLetters, joined_eq_nil_iff (standsAlone_map_singleLine alone), List.map_eq_nil_iff]

/-- A script on one line does not end with a blank. -/
theorem visible_last_of_compactLetters {read : List Token}
    (alone : ∀ token ∈ read, token.StandsAlone) :
    ∀ letter ∈ (compactLetters read).getLast?, isBlank letter = false :=
  visible_last_of_joined (standsAlone_map_singleLine alone)

end Lua

end LogPipeline
