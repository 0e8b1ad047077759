import LogPipeline.Lua.Splitting

namespace LogPipeline

namespace Lua

/-!
# Scripts on one line

A script is put on one line by writing its tokens one after the other.  A
string that spans lines is first folded into an equivalent one that does not:
a long string becomes a short one, and in a short string an escaped break
becomes `\n`, while `\z` goes together with the blanks that it skips.  Between
two tokens a single space stands exactly where they would otherwise be read as
something else.
-/

/-- What the inside of a long string becomes between double quotes, given the
break that the letter before it was, if any: two different breaks in a row
are one. -/
def longInside (broken : Option Char) : List Char → List Char
  | [] => []
  | letter :: rest =>
    if isBreak letter then
      match broken with
      | some first =>
        if first = letter then '\\' :: 'n' :: longInside (some letter) rest
        else longInside none rest
      | none => '\\' :: 'n' :: longInside (some letter) rest
    else if letter = '\\' then '\\' :: '\\' :: longInside none rest
    else if letter = '"' then '\\' :: '"' :: longInside none rest
    else letter :: longInside none rest

/-- The inside of a long string without the break that directly follows its
opening; two different breaks in a row are one. -/
def withoutFirstBreak : List Char → List Char
  | '\r' :: '\n' :: rest => rest
  | '\n' :: '\r' :: rest => rest
  | '\n' :: rest => rest
  | '\r' :: rest => rest
  | letters => letters

/-- A long string as a short one on one line. -/
def longToShort (letters : List Char) : List Char :=
  let level := (letters.tail.takeWhile (· = '=')).length
  let body := (letters.drop (level + 2)).take (letters.length - 2 * (level + 2))
  '"' :: (longInside none (withoutFirstBreak body) ++ ['"'])

/-- A short string from a state on, with its escaped breaks written as `\n`
and without `\z` and the blanks after it. -/
def foldShort (state : StringState) : List Char → List Char
  | [] =>
    match state with
    | .escaped => ['\\']
    | _ => []
  | letter :: rest =>
    match state with
    | .escaped =>
      if isBreak letter then '\\' :: 'n' :: foldShort (.broken letter) rest
      else if letter = 'z' then foldShort .skipping rest
      else '\\' :: letter :: foldShort .plain rest
    | .broken first =>
      if isBreak letter && letter ≠ first then foldShort .plain rest
      else if letter = '\\' then foldShort .escaped rest
      else letter :: foldShort .plain rest
    | .skipping =>
      if isBlank letter then foldShort .skipping rest
      else if letter = '\\' then foldShort .escaped rest
      else letter :: foldShort .plain rest
    | .plain =>
      if letter = '\\' then foldShort .escaped rest
      else letter :: foldShort .plain rest

/-- The letters of a token on one line. -/
def singleLineLetters (token : Token) : List Char :=
  if token.kind = .string && token.letters.any isBreak then
    match token.letters with
    | '[' :: _ => longToShort token.letters
    | letters => foldShort .plain letters
  else token.letters

def singleLine (token : Token) : Token :=
  { token with letters := singleLineLetters token }

/-- Whether two tokens written without a space between them would be read as
something else than the two. -/
def needsSpace (first second : Token) : Bool :=
  match tokens (first.letters ++ second.letters) with
  | .ok read => read ≠ [first, second]
  | .error _ => true

/-- Tokens one after the other, with a space between two that need one. -/
def joined : List Token → List Char
  | [] => []
  | [token] => token.letters
  | first :: second :: rest =>
    first.letters ++
      ((if needsSpace first second then [' '] else []) ++ joined (second :: rest))

/-- The tokens of a script on one line. -/
def compactLetters (read : List Token) : List Char :=
  joined (read.map singleLine)

end Lua

end LogPipeline
