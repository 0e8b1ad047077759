namespace LogPipeline

namespace Digits

/-!
# Positional digits

Numbers are written with the most significant digit first, in any base up to
sixteen, with lower-case letters for the digits above nine.  Every written
number has at least one digit, and no digit other than a lone zero leads it
with a zero.
-/

/-- The character of a digit below sixteen. -/
def character (digit : Nat) : Char :=
  if digit < 10 then Char.ofNat (48 + digit) else Char.ofNat (87 + digit)

/-- The value of a character as a digit: decimal digits and the letters of
either case, which stand for ten to fifteen. -/
def value? (letter : Char) : Option Nat :=
  if '0' ≤ letter ∧ letter ≤ '9' then some (letter.toNat - 48)
  else if 'a' ≤ letter ∧ letter ≤ 'f' then some (letter.toNat - 87)
  else if 'A' ≤ letter ∧ letter ≤ 'F' then some (letter.toNat - 55)
  else none

def isDecimal (letter : Char) : Bool :=
  '0' ≤ letter && letter ≤ '9'

def isHexadecimal (letter : Char) : Bool :=
  (value? letter).isSome

/-- The digits of a number in a base of at least two. -/
def inBase (base : Nat) (atLeastTwo : 2 ≤ base) (number : Nat) : List Char :=
  if _ : number < base then
    [character number]
  else
    inBase base atLeastTwo (number / base) ++ [character (number % base)]
termination_by number
decreasing_by
  exact Nat.div_lt_self (by omega) (by omega)

def decimal (number : Nat) : List Char :=
  inBase 10 (by omega) number

def hexadecimal (number : Nat) : List Char :=
  inBase 16 (by omega) number

/-- The decimal digits of a number, with zeros in front up to a given count. -/
def paddedDecimal (count number : Nat) : List Char :=
  let digits := decimal number
  List.replicate (count - digits.length) '0' ++ digits

/-- The hexadecimal digits of a number, with zeros in front up to a given count. -/
def paddedHexadecimal (count number : Nat) : List Char :=
  let digits := hexadecimal number
  List.replicate (count - digits.length) '0' ++ digits

/-- A signed number: a minus sign in front of the digits of a negative one. -/
def signed : Int → List Char
  | .ofNat number => decimal number
  | .negSucc number => '-' :: decimal (number + 1)

/-- The number that a nonempty row of digits denotes in a base of at most
sixteen, or nothing when some character is no digit of that base. -/
def read? (base : Nat) (letters : List Char) : Option Nat :=
  match letters with
  | [] => none
  | _ :: _ =>
    letters.foldl
      (fun total letter =>
        match total, value? letter with
        | some sum, some digit => if digit < base then some (sum * base + digit) else none
        | _, _ => none)
      (some 0)

end Digits

end LogPipeline
