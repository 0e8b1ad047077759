import LogPipeline.Number.FixedPoint
import LogPipeline.Number.Shortest
import LogPipeline.Value

namespace LogPipeline

namespace Json

/-!
# Lists and maps as JSON text

A list or a map stands in a configuration line as compact JSON: no blank
between its parts, entries in their order, and a backslash only where the
notation demands one.  A double is written as a whole number where it is one
of moderate size, as the shortest decimal that reads back otherwise, and as a
word in quotes where it is no finite number.
-/

/-- How a character is written inside a JSON string. -/
def character (letter : Char) : List Char :=
  match letter with
  | '"' => ['\\', '"']
  | '\\' => ['\\', '\\']
  | '\x08' => ['\\', 'b']
  | '\x0c' => ['\\', 'f']
  | '\n' => ['\\', 'n']
  | '\r' => ['\\', 'r']
  | '\t' => ['\\', 't']
  | other =>
    if other.toNat < 32 then '\\' :: 'u' :: Digits.paddedHexadecimal 4 other.toNat
    else [other]

def string (content : String) : List Char :=
  '"' :: (content.toList.flatMap character ++ ['"'])

/-- The whole number that an integral double is. -/
def wholeNumber (number : Binary64) : Int :=
  let magnitude := number.numerator / number.denominator
  if number.isNegative then -(magnitude : Int) else magnitude

/-- A JSON number, or a word in quotes for what is no finite number. -/
def real (number : Binary64) : List Char :=
  if number.isIntegral then Digits.signed (wholeNumber number)
  else if number.isFinite then Shortest.compact number
  else string (FixedPoint.text number)

mutual

/-- The JSON text of a value. -/
def letters : Value → List Char
  | .text content => string content
  | .integer number => Digits.signed number.toInt
  | .real number => real number
  | .truth flag => if flag then ['t', 'r', 'u', 'e'] else ['f', 'a', 'l', 's', 'e']
  | .list items => '[' :: (itemLetters items ++ [']'])
  | .map entries => '\x7b' :: (entryLetters entries ++ ['\x7d'])

def itemLetters : List Value → List Char
  | [] => []
  | [item] => letters item
  | item :: next :: items => letters item ++ ',' :: itemLetters (next :: items)

def entryLetters : List (String × Value) → List Char
  | [] => []
  | [(key, value)] => string key ++ ':' :: letters value
  | (key, value) :: next :: entries =>
    string key ++ ':' :: (letters value ++ ',' :: entryLetters (next :: entries))

end

def text (value : Value) : String :=
  String.ofList (letters value)

end Json

end LogPipeline
