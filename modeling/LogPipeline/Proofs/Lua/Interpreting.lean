import Mathlib.Data.List.TakeDrop
import LogPipeline.Lua.Chunk
import LogPipeline.Proofs.Lua.Joining
import LogPipeline.Proofs.Lua.Numerals

namespace LogPipeline

namespace Lua

/-!
# The tokens of the interpreter

The interpreter takes the same tokens as the splitting of scripts, but it
refuses some of them: numerals that are not whole and short literals with faulty
escapes.  Whether it refuses a token depends on the letters of the token alone.
So the two ways of splitting a script differ only in where a line comment ends,
and a text without comments has the same tokens for both.
-/

/-- Whether the interpreter takes a token of the splitting of scripts. -/
def Token.IsValid (token : Token) : Prop :=
  match token.kind with
  | .number => Lexicon.Numeral token.letters
  | .string => (Literal.bytes? token.letters).isSome
  | _ => True

namespace Literal

theorem longOpening?_of_quote {quote : Char} (isQuote : quote = '"' ∨ quote = '\'')
    (inside : List Char) : longOpening? (quote :: inside) = none := by
  rcases isQuote with rfl | rfl <;> rfl

/-- A short literal denotes the bytes of its pieces. -/
theorem bytes?_short_iff {quote : Char} (isQuote : quote = '"' ∨ quote = '\'')
    {inside : List Char} {bytes : List UInt8} :
    bytes? (quote :: inside) = some bytes ↔ Pieces quote inside bytes := by
  unfold bytes?
  rw [longOpening?_of_quote isQuote]
  dsimp only
  rw [if_pos (by simpa using isQuote)]
  constructor
  · intro denotes
    split at denotes
    · rename_i found whole read
      cases denotes
      rcases pieces?_eq_some_iff.mp read with ⟨same, pieces⟩
      rw [List.append_nil] at same
      rwa [← same]
    · cases denotes
  · intro pieces
    have read : pieces? quote inside = some (bytes, inside, []) :=
      pieces?_eq_some_iff.mpr ⟨List.append_nil inside, pieces⟩
    rw [read]

/-- A long literal denotes its inside. -/
theorem bytes?_long {level : Nat} {inside : List Char}
    (closed : untilClosing? level inside = some (inside, [])) :
    bytes? (longLetters level inside) =
      some (insideBytes (inside.take (inside.length - (level + 2)))) := by
  unfold bytes?
  rw [longOpening?_longLetters]
  dsimp only
  rw [closed]

end Literal

namespace Lexicon

theorem startsNumeral_cons (first : Char) (rest : List Char) :
    startsNumeral (first :: rest) = startsNumber first rest := by
  cases rest with
  | nil =>
    by_cases point : first = '.'
    · subst point
      rfl
    · simp [startsNumeral, startsNumber]
  | cons second rest =>
    by_cases point : first = '.'
    · subst point
      rfl
    · simp [startsNumeral, startsNumber, point]

theorem word_eq (letters : List Char) : word letters = wordAt letters := by
  rw [word, wordAt, List.span_eq_takeWhile_dropWhile]
  dsimp only
  split <;> rfl

theorem symbol?_iff_symbolAt {first : Char} {rest after : List Char} {token : Token} :
    symbol? (first :: rest) = some (token, after) ↔
      symbolAt 1 first rest = .ok (token, after) := by
  rw [symbol?, symbolAt]
  cases symbols.find? fun symbol => symbol.toList.isPrefixOf (first :: rest) with
  | none => simp
  | some symbol => simp [Token.ofSymbol]

private theorem symbols_bracket : ∀ symbol ∈ symbols, symbol.toList.head? = some '[' →
    symbol.toList = ['['] := by
  decide +kernel

theorem symbol?_bracket (rest : List Char) :
    symbol? ('[' :: rest) = some ({ kind := .symbol, letters := ['['] }, rest) := by
  have found : (symbols.find? fun symbol => symbol.toList.isPrefixOf ('[' :: rest)) = some "[" := by
    refine find?_symbols_iff.mpr ⟨by decide, ⟨rest, rfl⟩, ?_⟩
    rintro other listed ⟨behind, whole⟩
    rcases List.exists_cons_of_ne_nil (symbol_ne_nil other listed) with ⟨head, tail, same⟩
    rw [same, List.cons_append] at whole
    rcases List.cons.inj whole with ⟨rfl, -⟩
    rw [symbols_bracket other listed (by rw [same]; rfl)]
    exact Nat.le_refl 1
  rw [symbol?, found]
  rfl

theorem bracket?_iff_bracketAt {rest after : List Char} {token : Token} :
    bracket? ('[' :: rest) = some (token, after) ↔
      ∃ reached, bracketAt 1 rest = .ok (token, after, reached) := by
  unfold bracket? bracketAt
  cases longOpening? ('[' :: rest) with
  | some pair =>
    rcases pair with ⟨level, body⟩
    dsimp only
    cases untilClosing? level body with
    | none => simp
    | some pair => simp
  | none =>
    dsimp only
    split
    · rename_i opening rest' same
      cases same
      simp
    · rename_i noEquals
      rw [symbol?_bracket]
      split
      · rename_i inner
        exact absurd rfl (noEquals '[' inner)
      · simp

private theorem isValid_of_wordAt {letters after : List Char} {token : Token}
    (taken : wordAt letters = (token, after)) : token.IsValid := by
  rcases Prod.mk.inj taken with ⟨rfl, -⟩
  unfold Token.IsValid
  dsimp only
  cases isKeyword (letters.takeWhile isNamePart) <;> exact trivial

private theorem isValid_of_bracketAt {rest after : List Char} {token : Token} {line reached : Nat}
    (taken : bracketAt line rest = .ok (token, after, reached)) : token.IsValid := by
  rcases bracketAt_eq_ok_iff.mp ⟨reached, taken⟩ with ⟨level, inside, rfl, -, closed⟩ | ⟨rfl, -, -⟩
  · change (Literal.bytes? (longLetters level inside)).isSome = true
    rw [Literal.bytes?_long closed]
    rfl
  · exact trivial

private theorem isValid_of_symbolAt {first : Char} {rest after : List Char} {token : Token}
    {line : Nat} (taken : symbolAt line first rest = .ok (token, after)) : token.IsValid := by
  have kind := (symbolAt_eq_ok_iff.mp taken).1
  rw [Token.IsValid, kind]
  exact trivial

/-- The interpreter takes a short literal where the splitting of scripts takes
one and its escapes are in order. -/
theorem shortLiteral?_eq_some_iff {quote : Char} {rest after : List Char} {token : Token}
    (isQuote : quote = '"' ∨ quote = '\'') :
    shortLiteral? quote rest = some (token, after) ↔
      (∃ inside, token = { kind := .string, letters := quote :: inside } ∧
        inside ++ after = rest ∧ isStringRest quote .plain inside = true) ∧ token.IsValid := by
  rw [shortLiteral?, Option.map_eq_some_iff]
  constructor
  · rintro ⟨⟨bytes, inside, left⟩, read, same⟩
    rcases Prod.mk.inj same with ⟨rfl, rfl⟩
    rcases Literal.pieces?_eq_some_iff.mp read with ⟨whole, pieces⟩
    refine ⟨⟨inside, rfl, whole, Literal.isStringRest_of_pieces isQuote pieces⟩, ?_⟩
    change (Literal.bytes? (quote :: inside)).isSome = true
    rw [(Literal.bytes?_short_iff isQuote).mpr pieces]
    rfl
  · rintro ⟨⟨inside, rfl, whole, -⟩, valid⟩
    rcases Option.isSome_iff_exists.mp valid with ⟨bytes, denotes⟩
    have pieces := (Literal.bytes?_short_iff isQuote).mp denotes
    exact ⟨(bytes, inside, after), Literal.pieces?_eq_some_iff.mpr ⟨whole, pieces⟩, rfl⟩

/-- The interpreter takes a token exactly if the splitting of scripts takes it
and the token is valid. -/
theorem token?_eq_some_iff {first : Char} {rest after : List Char} {token : Token} :
    token? first rest = some (token, after) ↔
      readToken? first rest = some (token, after) ∧ token.IsValid := by
  rw [readToken?_eq_some_iff, token?, TakenAt, startsNumeral_cons]
  by_cases isName : isNameStart first = true
  · rw [if_pos isName, if_pos isName, Option.some_inj, word_eq]
    exact ⟨fun taken => ⟨taken, isValid_of_wordAt taken⟩, And.left⟩
  rw [if_neg isName, if_neg isName]
  by_cases isNumber : startsNumber first rest = true
  · rw [if_pos isNumber, if_pos isNumber, numeral?_iff_numeralAt]
    refine and_congr_right fun taken => ?_
    rw [Token.IsValid, (numeralAt_eq_ok_iff.mp taken).1]
  rw [if_neg isNumber, if_neg isNumber]
  by_cases isQuote : first = '"' ∨ first = '\''
  · rw [if_pos (by simpa using isQuote), if_pos isQuote, shortLiteral?_eq_some_iff isQuote]
  rw [if_neg (by simpa using isQuote), if_neg isQuote]
  by_cases isBracket : first = '['
  · subst isBracket
    rw [if_pos rfl, if_pos rfl, bracket?_iff_bracketAt]
    refine ⟨fun taken => ⟨taken, ?_⟩, And.left⟩
    rcases taken with ⟨reached, taken⟩
    exact isValid_of_bracketAt taken
  · rw [if_neg isBracket, if_neg isBracket, symbol?_iff_symbolAt]
    exact ⟨fun taken => ⟨taken, isValid_of_symbolAt taken⟩, And.left⟩

end Lexicon

/-! ## Splitting as the interpreter does -/

/-- The way in which the interpreter splits scripts: a line comment ends at a
break of either kind. -/
def interpreting : Splitter where
  endsLine := isBreak
  token? := Lexicon.token?
  whole := fun taken => splitting.whole (Lexicon.token?_eq_some_iff.mp taken).1

theorem tokensWithin_comment (steps : Nat) (rest : List Char) :
    Lexicon.tokensWithin (steps + 1) ('-' :: '-' :: rest) =
      (Lexicon.afterComment? rest).bind (Lexicon.tokensWithin steps) := by
  rw [Lexicon.tokensWithin]
  cases Lexicon.afterComment? rest <;> rfl

theorem tokensWithin_cons {first : Char} {rest : List Char}
    (noComment : startsComment (first :: rest) = false) (steps : Nat) :
    Lexicon.tokensWithin (steps + 1) (first :: rest) =
      if isBlank first then Lexicon.tokensWithin steps rest
      else
        (Lexicon.token? first rest).bind fun (token, after) =>
          (Lexicon.tokensWithin steps after).map (token :: ·) := by
  have noDashes : ∀ tail, first = '-' → rest = '-' :: tail → False := by
    rintro tail rfl rfl
    simp [startsComment] at noComment
  rw [Lexicon.tokensWithin.eq_4 steps first rest noDashes]
  cases Lexicon.token? first rest <;> rfl

/-- A comment is passed over as it is by the interpreter. -/
theorem afterComment?_eq (rest : List Char) :
    Lexicon.afterComment? rest = (interpreting.commentAt? rest).map Prod.snd := by
  rw [Lexicon.afterComment?, Splitter.commentAt?]
  cases longOpening? rest with
  | none => rfl
  | some pair =>
    rcases pair with ⟨level, body⟩
    dsimp only
    cases untilClosing? level body <;> rfl

theorem tokensWithin_eq {steps : Nat} {letters : List Char} (enough : letters.length ≤ steps) :
    Lexicon.tokensWithin steps letters = interpreting.tokens? letters := by
  induction steps generalizing letters with
  | zero =>
    rw [List.eq_nil_of_length_eq_zero (Nat.le_zero.mp enough), Splitter.tokens?_nil]
    rfl
  | succ steps inductionHypothesis =>
    cases letters with
    | nil =>
      rw [Splitter.tokens?_nil]
      rfl
    | cons first rest =>
      have left {part : Part} {after : List Char}
          (taken : interpreting.partAt? first rest = some (part, after)) :
          Lexicon.tokensWithin steps after = interpreting.tokens? after := by
        have shorter := Splitter.length_lt_of_partAt? taken
        exact inductionHypothesis (by omega)
      cases dashes : startsComment (first :: rest) with
      | true =>
        rcases startsComment_iff.mp dashes with ⟨tail, same⟩
        cases same
        rw [tokensWithin_comment, afterComment?_eq]
        have parts := @Splitter.partAt?_comment interpreting tail
        cases taken : interpreting.commentAt? tail with
        | none =>
          rw [Splitter.tokens?_of_none (parts.trans taken)]
          rfl
        | some pair =>
          rcases pair with ⟨part, after⟩
          have isComment := (Splitter.append_of_commentAt? taken).2.2
          have gap : part.token? = none := by cases part <;> first | rfl | cases isComment
          rw [Splitter.tokens?_of_gap (parts.trans taken) gap, ← left (parts.trans taken)]
          rfl
      | false =>
        have parts := @Splitter.partAt?_of_noComment interpreting _ _ dashes
        rw [tokensWithin_cons dashes]
        split
        · rename_i blank
          rw [if_pos blank] at parts
          rw [left parts, Splitter.tokens?_of_gap parts rfl]
        · rename_i noBlank
          rw [if_neg noBlank] at parts
          cases taken : Lexicon.token? first rest with
          | none =>
            rw [show interpreting.token? first rest = none from taken] at parts
            rw [Splitter.tokens?_of_none parts]
            rfl
          | some pair =>
            rcases pair with ⟨token, after⟩
            rw [show interpreting.token? first rest = some (token, after) from taken] at parts
            rw [Splitter.tokens?_of_token parts, ← left parts]
            rfl

/-- The interpreter finds the tokens among the parts of a script. -/
theorem tokens?_eq (letters : List Char) :
    Lexicon.tokens? letters = interpreting.tokens? letters :=
  tokensWithin_eq (Nat.le_refl _)

/-- The tokens that the interpreter finds are valid. -/
theorem isValid_of_tokens? {letters : List Char} {read : List Token}
    (split : Lexicon.tokens? letters = some read) : ∀ token ∈ read, token.IsValid := by
  rw [tokens?_eq, Splitter.tokens?, Option.map_eq_some_iff] at split
  rcases split with ⟨parts, split, rfl⟩
  induction parts generalizing letters with
  | nil => simp
  | cons part parts inductionHypothesis =>
    rcases Splitter.parts?_eq_some_cons_iff.mp split with ⟨first, rest, after, rfl, taken, splitRest⟩
    intro token member
    rcases List.mem_filterMap.mp member with ⟨found, listed, isToken⟩
    rcases List.mem_cons.mp listed with rfl | inRest
    · cases found <;> cases isToken
      exact (Lexicon.token?_eq_some_iff.mp (Splitter.token_of_partAt? taken).2.2).2
    · exact inductionHypothesis splitRest token (List.mem_filterMap.mpr ⟨found, inRest, isToken⟩)

/-- The interpreter finds in a text without comments the tokens that it spells,
as long as these are valid. -/
theorem tokens?_of_spells {letters : List Char} {read found : List Token}
    (spells : Spells letters read) :
    Lexicon.tokens? letters = some found ↔ found = read ∧ ∀ token ∈ read, token.IsValid := by
  rw [tokens?_eq]
  induction spells generalizing found with
  | nil => simp [Splitter.tokens?_nil, eq_comm]
  | @blank letter rest read blank spells inductionHypothesis =>
    rw [Splitter.tokens?_of_isBlank blank]
    exact inductionHypothesis
  | @token token rest read alone ends spells inductionHypothesis =>
    rcases alone with ⟨first, tail, spelled, taken⟩
    rcases (readToken?_append_iff spelled).mpr ⟨taken, ends⟩ with ⟨isRead, noComment⟩
    rw [spelled, List.cons_append] at noComment
    have parts := @Splitter.partAt?_of_noComment interpreting _ _ noComment
    rw [if_neg (by simp [visible_of_readToken? taken])] at parts
    rw [spelled, List.cons_append]
    by_cases valid : token.IsValid
    · have isTaken : interpreting.token? first (tail ++ rest) = some (token, rest) :=
        Lexicon.token?_eq_some_iff.mpr ⟨isRead, valid⟩
      rw [isTaken] at parts
      rw [Splitter.tokens?_of_token parts, Option.map_eq_some_iff]
      constructor
      · rintro ⟨others, split, rfl⟩
        rcases inductionHypothesis.mp split with ⟨rfl, othersValid⟩
        exact ⟨rfl, List.forall_mem_cons.mpr ⟨valid, othersValid⟩⟩
      · rintro ⟨rfl, allValid⟩
        have othersValid := (List.forall_mem_cons.mp allValid).2
        exact ⟨read, inductionHypothesis.mpr ⟨rfl, othersValid⟩, rfl⟩
    · have isRefused : interpreting.token? first (tail ++ rest) = none := by
        cases found : interpreting.token? first (tail ++ rest) with
        | none => rfl
        | some pair =>
          rcases Lexicon.token?_eq_some_iff.mp found with ⟨isRead', isValid⟩
          rw [isRead] at isRead'
          cases isRead'
          exact absurd isValid valid
      rw [isRefused] at parts
      rw [Splitter.tokens?_of_none parts]
      constructor
      · intro split
        cases split
      · rintro ⟨-, allValid⟩
        exact absurd (allValid token List.mem_cons_self) valid

/-- Whether the interpreter accepts a text without comments depends on its
tokens only. -/
theorem isChunk_congr {first second : String} {read : List Token}
    (firstSpells : Spells first.toList read) (secondSpells : Spells second.toList read) :
    isChunk first = isChunk second := by
  have same : Lexicon.tokens? first.toList = Lexicon.tokens? second.toList := by
    ext found
    rw [tokens?_of_spells firstSpells, tokens?_of_spells secondSpells]
  rw [isChunk, isChunk, Block.ofLetters?, Block.ofLetters?, same]

end Lua

end LogPipeline
