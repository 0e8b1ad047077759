import LogPipeline.Number.Digits

namespace LogPipeline

namespace Quoted

/-!
# Quoted configuration text

A value that would break its line is written between double quotes.  Inside
them a quote, a backslash and every ASCII control character is written as a
backslash followed by a letter of its own, or by `x` and two hexadecimal
digits where there is no such letter.  All other characters are unchanged, so
the inside holds no control character and no bare quote, and reading the
escapes back gives the text again.

All that is escaped is a single byte of the text.  So a text is gone through
byte by byte, and the bytes between two escapes are taken over as one run.
-/

/-- The letter that stands for a character after a backslash, for those that
have one. -/
def escapeLetter? (letter : Char) : Option Char :=
  match letter with
  | '\n' => some 'n'
  | '\r' => some 'r'
  | '\t' => some 't'
  | '"' => some '"'
  | '\\' => some '\\'
  | '\x07' => some 'a'
  | '\x08' => some 'b'
  | '\x0b' => some 'v'
  | '\x0c' => some 'f'
  | _ => none

def isControl (letter : Char) : Bool :=
  letter.toNat < 32 || letter.toNat = 127

/-- How a character is written between the quotes. -/
def character (letter : Char) : List Char :=
  match escapeLetter? letter with
  | some escape => ['\\', escape]
  | none =>
    if isControl letter then
      '\\' :: 'x' :: Digits.paddedHexadecimal 2 letter.toNat
    else [letter]

/-- The inside of the quotes, character by character. -/
def encode (letters : List Char) : List Char :=
  letters.flatMap character

/-- The character that a letter after a backslash stands for. -/
def escapedBy? (escape : Char) : Option Char :=
  match escape with
  | 'n' => some '\n'
  | 'r' => some '\r'
  | 't' => some '\t'
  | '"' => some '"'
  | '\\' => some '\\'
  | 'a' => some '\x07'
  | 'b' => some '\x08'
  | 'v' => some '\x0b'
  | 'f' => some '\x0c'
  | _ => none

/-- The text whose quoted inside is given, or nothing where a quote stands
bare or a backslash begins no escape. -/
def decode : List Char → Option (List Char)
  | [] => some []
  | '"' :: _ => none
  | '\\' :: 'x' :: high :: low :: rest =>
    match Digits.value? high, Digits.value? low with
    | some sixteens, some units =>
      (decode rest).map (Char.ofNat (16 * sixteens + units) :: ·)
    | _, _ => none
  | '\\' :: escape :: rest =>
    match escapedBy? escape with
    | some letter => (decode rest).map (letter :: ·)
    | none => none
  | ['\\'] => none
  | letter :: rest => (decode rest).map (letter :: ·)

/-! ## Runs of bytes -/

/-- What is written in place of a byte, if it does not stand for itself. -/
def escapedByte? (byte : UInt8) : Option (List Char) :=
  let letter := Char.ofUInt8 byte
  if (escapeLetter? letter).isSome || isControl letter then some (character letter) else none

/-- A part of the inside of the quotes: a run of bytes of the text, from one
offset up to another, or what is written in place of a byte. -/
inductive Part where
  | run (start stop : Nat)
  | escape (letters : List Char)

/-- The run that is still to be taken over, unless it is empty. -/
def pendingRun (start index : Nat) : List Part :=
  if start < index then [.run start index] else []

/-- The parts for the bytes from an offset on, where the run that is still to be
taken over began at another. -/
def partsFrom (start index : Nat) : List UInt8 → List Part
  | [] => pendingRun start index
  | byte :: rest =>
    match escapedByte? byte with
    | some letters =>
      pendingRun start index ++ .escape letters :: partsFrom (index + 1) (index + 1) rest
    | none => partsFrom start (index + 1) rest

def parts (content : String) : List Part :=
  partsFrom 0 0 content.toByteArray.data.toList

def Part.letters (content : String) : Part → List Char
  | .run start stop => (String.Pos.Raw.extract content ⟨start⟩ ⟨stop⟩).toList
  | .escape letters => letters

/-- The inside of the quotes for a text. -/
def inside (content : String) : List Char :=
  (parts content).flatMap (Part.letters content)

def escape (content : String) : String :=
  String.ofList (inside content)

/-- A text between double quotes. -/
def quote (content : String) : String :=
  String.ofList ('"' :: (inside content ++ ['"']))

def hasLineBreak (content : String) : Bool :=
  content.toList.contains '\n'

end Quoted

end LogPipeline
