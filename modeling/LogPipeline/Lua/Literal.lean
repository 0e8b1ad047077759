import LogPipeline.Lua.Splitting

namespace LogPipeline

namespace Lua

/-!
# What a string literal denotes

A short literal is a quote, pieces, and the same quote.  A piece is a letter
that is no break, which denotes its bytes, or an escape.  A long literal
denotes its inside with every break read as one line feed and without a break
at its very start.  Two different break letters in a row are one break.
-/

namespace Literal

def letterBytes (letter : Char) : List UInt8 :=
  String.utf8EncodeChar letter

/-- The tail bytes of a code that takes a number of them. -/
def tailBytes : Nat → Nat → List UInt8
  | 0, _ => []
  | count + 1, code => tailBytes count (code / 64) ++ [UInt8.ofNat (128 + code % 64)]

/-- The bytes of a code of up to thirty-one bits: one byte below 128, else a
lead byte that tells how many tail bytes follow, each of which holds six bits. -/
def codeBytes (code : Nat) : List UInt8 :=
  if code < 0x80 then [UInt8.ofNat code]
  else if code < 0x800 then UInt8.ofNat (0xC0 + code / 64) :: tailBytes 1 code
  else if code < 0x10000 then UInt8.ofNat (0xE0 + code / 0x1000) :: tailBytes 2 code
  else if code < 0x200000 then UInt8.ofNat (0xF0 + code / 0x40000) :: tailBytes 3 code
  else if code < 0x4000000 then UInt8.ofNat (0xF8 + code / 0x1000000) :: tailBytes 4 code
  else UInt8.ofNat (0xFC + code / 0x40000000) :: tailBytes 5 code

/-- The number of letters of a break at the start of letters, none if there is
no break. -/
def breakSize : List Char → Nat
  | first :: second :: _ =>
    if isBreak first then if isBreak second && first ≠ second then 2 else 1 else 0
  | [first] => if isBreak first then 1 else 0
  | [] => 0

/-- The escapes that denote one byte each. -/
def namedEscape? (letter : Char) : Option UInt8 :=
  match letter with
  | 'a' => some 7
  | 'b' => some 8
  | 't' => some 9
  | 'n' => some 10
  | 'v' => some 11
  | 'f' => some 12
  | 'r' => some 13
  | '"' => some 34
  | '\'' => some 39
  | '\\' => some 92
  | _ => none

/-- A part of a short literal: the bytes that it denotes, and how many letters it has. -/
structure Piece where
  bytes : List UInt8
  size : Nat
deriving DecidableEq

/-- The escape with two hexadecimal digits, given what follows its mark. -/
def hexadecimalEscape? (letters : List Char) : Option Piece :=
  let digits := letters.take 2
  if digits.length = 2 then
    (Digits.read? 16 digits).map fun byte => { bytes := [UInt8.ofNat byte], size := 4 }
  else none

/-- The escape with one to three decimal digits. -/
def decimalEscape? (letters : List Char) : Option Piece :=
  let digits := (letters.take 3).takeWhile Digits.isDecimal
  match Digits.read? 10 digits with
  | some byte =>
    if byte ≤ 255 then some { bytes := [UInt8.ofNat byte], size := digits.length + 1 } else none
  | none => none

/-- The escape with a code in braces, given what follows its mark. -/
def codeEscape? : List Char → Option Piece
  | '\x7b' :: rest =>
    let digits := rest.takeWhile Digits.isHexadecimal
    match Digits.read? 16 digits, rest.dropWhile Digits.isHexadecimal with
    | some code, '\x7d' :: _ =>
      if code < 0x80000000 then some { bytes := codeBytes code, size := digits.length + 4 }
      else none
    | _, _ => none
  | _ => none

/-- The escape that letters begin with, given what follows its backslash. -/
def escape? (letters : List Char) : Option Piece :=
  match breakSize letters, letters with
  | _, [] => none
  | size + 1, _ => some { bytes := [10], size := size + 2 }
  | 0, 'z' :: rest => some { bytes := [], size := (rest.takeWhile isBlank).length + 2 }
  | 0, 'x' :: rest => hexadecimalEscape? rest
  | 0, 'u' :: rest => codeEscape? rest
  | 0, letter :: rest =>
    match namedEscape? letter with
    | some byte => some { bytes := [byte], size := 2 }
    | none => decimalEscape? (letter :: rest)

/-- The piece at the start of letters inside a short literal. -/
def piece? (first : Char) (rest : List Char) : Option Piece :=
  if first = '\\' then escape? rest
  else if isBreak first then none
  else some { bytes := letterBytes first, size := 1 }

/-- What a short literal holds up to its closing quote, given how many letters
still belong to the last piece: the bytes, the letters with the quote, and what
follows. -/
def piecesFrom (quote : Char) : Nat → List Char → Option (List UInt8 × List Char × List Char)
  | _, [] => none
  | held + 1, letter :: rest =>
    (piecesFrom quote held rest).map fun (bytes, inside, after) => (bytes, letter :: inside, after)
  | 0, letter :: rest =>
    if letter = quote then some ([], [letter], rest)
    else
      match piece? letter rest with
      | none => none
      | some piece =>
        (piecesFrom quote (piece.size - 1) rest).map fun (bytes, inside, after) =>
          (piece.bytes ++ bytes, letter :: inside, after)

/-- What a short literal holds after its opening quote. -/
def pieces? (quote : Char) (letters : List Char) :
    Option (List UInt8 × List Char × List Char) :=
  piecesFrom quote 0 letters

/-- The bytes of letters inside a long literal, every break as a line feed. -/
def longBytes : List Char → List UInt8
  | [] => []
  | [letter] => if isBreak letter then [10] else letterBytes letter
  | first :: second :: rest =>
    if isBreak first then
      if isBreak second && first ≠ second then 10 :: longBytes rest
      else 10 :: longBytes (second :: rest)
    else letterBytes first ++ longBytes (second :: rest)

/-- The bytes inside a long literal, a break at its start left out. -/
def insideBytes (letters : List Char) : List UInt8 :=
  longBytes (letters.drop (breakSize letters))

/-- The bytes that a string literal denotes; none if it is not one literal. -/
def bytes? (letters : List Char) : Option (List UInt8) :=
  match longOpening? letters with
  | some (level, body) =>
    match untilClosing? level body with
    | some (inside, []) => some (insideBytes (inside.take (inside.length - (level + 2))))
    | _ => none
  | none =>
    match letters with
    | quote :: rest =>
      if quote = '"' || quote = '\'' then
        match pieces? quote rest with
        | some (bytes, _, []) => some bytes
        | _ => none
      else none
    | [] => none

end Literal

end Lua

end LogPipeline
