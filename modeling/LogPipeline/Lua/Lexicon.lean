import LogPipeline.Lua.Literal

namespace LogPipeline

namespace Lua

/-!
# The lexical rules of the interpreter

The interpreter reads a script from left to right as well.  Blanks separate
tokens; two dashes begin a comment, which is long where a long bracket opens
directly after them and else ends at the next break, be it a line feed or a
carriage return.  A numeral must be whole: it is a run of digits of its base
with a fraction and an exponent at will, and what follows it may not go on a
word or a numeral.  A short literal holds valid escapes only.
-/

namespace Lexicon

/-- The sign at the start of letters, if there is one, and what follows. -/
def signParts : List Char → List Char × List Char
  | letter :: rest =>
    if letter = '+' || letter = '-' then ([letter], rest) else ([], letter :: rest)
  | [] => ([], [])

/-- A whole exponent at the start of letters, or nothing: a mark, a sign at
will, and at least one digit. -/
def exponentParts (isMark : Char → Bool) (letters : List Char) : List Char × List Char :=
  match letters with
  | mark :: rest =>
    let (sign, digits) := signParts rest
    if isMark mark && digits.head?.any Digits.isDecimal then
      (mark :: (sign ++ digits.takeWhile Digits.isDecimal), digits.dropWhile Digits.isDecimal)
    else ([], letters)
  | [] => ([], [])

/-- Digits with a point at will between them; at least one digit there must be. -/
def significand? (isDigit : Char → Bool) (letters : List Char) :
    Option (List Char × List Char) :=
  let whole := letters.takeWhile isDigit
  match letters.dropWhile isDigit with
  | '.' :: rest =>
    let fraction := rest.takeWhile isDigit
    if whole.isEmpty && fraction.isEmpty then none
    else some (whole ++ '.' :: fraction, rest.dropWhile isDigit)
  | rest => if whole.isEmpty then none else some (whole, rest)

/-- The digits and the exponent of a numeral of either base, and what follows. -/
def numeralBody? (isDigit isMark : Char → Bool) (letters : List Char) :
    Option (List Char × List Char) :=
  match significand? isDigit letters with
  | some (digits, rest) =>
    let (exponent, after) := exponentParts isMark rest
    some (digits ++ exponent, after)
  | none => none

/-- The longest numeral at the start of letters, and what follows. -/
def longestNumeral? (letters : List Char) : Option (List Char × List Char) :=
  match letters with
  | zero :: mark :: rest =>
    if zero = '0' && (mark = 'x' || mark = 'X') then
      (numeralBody? Digits.isHexadecimal (fun letter => letter = 'p' || letter = 'P') rest).map
        fun (body, after) => (zero :: mark :: body, after)
    else numeralBody? Digits.isDecimal (fun letter => letter = 'e' || letter = 'E') letters
  | _ => numeralBody? Digits.isDecimal (fun letter => letter = 'e' || letter = 'E') letters

/-- Whether a letter would go on a numeral or a word. -/
def goesOn (letter : Char) : Bool :=
  isNamePart letter || letter = '.'

/-- The numeral at the start of letters, and what follows, which may not go on it. -/
def numeral? (letters : List Char) : Option (Token × List Char) :=
  match longestNumeral? letters with
  | some (numeral, after) =>
    if after.head?.any goesOn then none else some ({ kind := .number, letters := numeral }, after)
  | none => none

/-- Whether a numeral stands at the start of letters: a digit, or a point and
a digit. -/
def startsNumeral : List Char → Bool
  | '.' :: second :: _ => Digits.isDecimal second
  | first :: _ => Digits.isDecimal first
  | [] => false

/-- The short literal at the start of letters, and what follows. -/
def shortLiteral? (quote : Char) (letters : List Char) : Option (Token × List Char) :=
  (Literal.pieces? quote letters).map fun (_, inside, after) =>
    ({ kind := .string, letters := quote :: inside }, after)

/-- The symbol at the start of letters, and what follows. -/
def symbol? (letters : List Char) : Option (Token × List Char) :=
  (symbols.find? fun symbol => symbol.toList.isPrefixOf letters).map fun symbol =>
    (.ofSymbol symbol, letters.drop symbol.toList.length)

/-- The long literal at the start of letters, or a lone bracket, and what
follows.  A bracket with equals signs and no second bracket is neither. -/
def bracket? (letters : List Char) : Option (Token × List Char) :=
  match longOpening? letters with
  | some (level, body) =>
    (untilClosing? level body).map fun (inside, after) =>
      ({ kind := .string, letters := '[' :: (List.replicate level '=' ++ '[' :: inside) }, after)
  | none =>
    match letters with
    | _ :: '=' :: _ => none
    | _ => symbol? letters

/-- The word at the start of letters, and what follows. -/
def word (letters : List Char) : Token × List Char :=
  let (inside, after) := letters.span isNamePart
  (if isKeyword inside then { kind := .keyword, letters := inside }
    else { kind := .name, letters := inside }, after)

/-- The token at the start of letters that begin with no gap, and what follows. -/
def token? (first : Char) (rest : List Char) : Option (Token × List Char) :=
  if isNameStart first then some (word (first :: rest))
  else if startsNumeral (first :: rest) then numeral? (first :: rest)
  else if first = '"' || first = '\'' then shortLiteral? first rest
  else if first = '[' then bracket? (first :: rest)
  else symbol? (first :: rest)

/-- What follows a comment, given what stands after its two dashes. -/
def afterComment? (letters : List Char) : Option (List Char) :=
  match longOpening? letters with
  | some (level, body) => (untilClosing? level body).map Prod.snd
  | none => some (letters.dropWhile fun letter => !isBreak letter)

/-- The tokens of letters in at most a number of steps, each of which takes a
blank, a comment or a token. -/
def tokensWithin : Nat → List Char → Option (List Token)
  | _, [] => some []
  | 0, _ => none
  | steps + 1, '-' :: '-' :: rest =>
    match afterComment? rest with
    | some after => tokensWithin steps after
    | none => none
  | steps + 1, first :: rest =>
    if isBlank first then tokensWithin steps rest
    else
      match token? first rest with
      | some (token, after) => (tokensWithin steps after).map (token :: ·)
      | none => none

/-- The tokens that the interpreter finds in a script, if it finds nothing
wrong with its letters. -/
def tokens? (letters : List Char) : Option (List Token) :=
  tokensWithin letters.length letters

end Lexicon

end Lua

end LogPipeline
