import LogPipeline.Lua.Splitting

namespace LogPipeline

namespace Lua

namespace Scanner

/-!
# Scanning a script by its bytes

A script can be split into tokens where it lies, in the bytes of its text.  The
scanner stands at an offset, looks at single bytes and moves on by a number of
bytes; the letters of a token are taken from the text between two offsets.  A
backslash in a short string moves the scanner two bytes on, which may leave it
inside a character.

All that could go wrong on the way is checked where it would happen, and ends
the scanning in a halt of its own: a move past the end of the text, a piece
whose ends are not between characters, and a turn of a loop that does not move
on.  A loop is repeated while it moves on and stays within the text, so every
script is scanned to an end.
-/

/-- Where the scanner stands: an offset in bytes, and a line. -/
structure Cursor where
  position : Nat
  line : Nat
deriving DecidableEq

/-- What ends the scanning of a script early. -/
inductive Halt where
  /-- The script does not split into tokens. -/
  | fault (fault : Fault)
  /-- A piece of the text would begin or end inside a character or outside the text. -/
  | cut (start stop : Nat)
  /-- The scanner would move past the end of the text. -/
  | beyond (position : Nat)
  /-- A loop would go on without having moved on. -/
  | stuck (position : Nat)
deriving DecidableEq

/-- What a turn of a loop leads to: another turn, or the end of the loop. -/
inductive Turn where
  | again (cursor : Cursor)
  | done (cursor : Cursor)

def start : Cursor :=
  { position := 0, line := 1 }

namespace Cursor

variable (content : String) (cursor : Cursor)

/-- The byte that stands a number of bytes further on, if the text reaches so
far.  A byte is given as the character of its number. -/
def peek (ahead : Nat) : Option Char :=
  (content.toByteArray.data[cursor.position + ahead]?).map Char.ofUInt8

/-- The place a number of bytes further on. -/
def advance (count : Nat) : Except Halt Cursor :=
  if cursor.position + count ≤ content.utf8ByteSize then
    .ok { cursor with position := cursor.position + count }
  else .error (.beyond (cursor.position + count))

def nextLine : Cursor :=
  { cursor with line := cursor.line + 1 }

def fail {α : Type} (cause : FaultCause) : Except Halt α :=
  .error (.fault { line := cursor.line, cause := cause })

/-- The letters of the text from the cursor to an offset. -/
def slice (stop : Nat) : Except Halt (List Char) :=
  if cursor.position ≤ stop ∧ String.Pos.Raw.IsValid content ⟨cursor.position⟩ ∧
      String.Pos.Raw.IsValid content ⟨stop⟩ then
    .ok (String.Pos.Raw.extract content ⟨cursor.position⟩ ⟨stop⟩).toList
  else .error (.cut cursor.position stop)

/-- The bytes of the text from the cursor to an offset. -/
def bytes (stop : Nat) : Except Halt (List Char) :=
  if cursor.position ≤ stop ∧ stop ≤ content.utf8ByteSize then
    .ok ((content.toByteArray.data.toList.drop cursor.position).take
      (stop - cursor.position) |>.map Char.ofUInt8)
  else .error (.cut cursor.position stop)

end Cursor

section Loops

variable (content : String)

/-- A loop: turn after turn, as long as each moves on within the text. -/
def repeated (turn : Cursor → Except Halt Turn) (cursor : Cursor) : Except Halt Cursor :=
  match turn cursor with
  | .error halt => .error halt
  | .ok (.done last) => .ok last
  | .ok (.again next) =>
    if _onward : cursor.position < next.position ∧ next.position ≤ content.utf8ByteSize then
      repeated turn next
    else .error (.stuck next.position)
termination_by content.utf8ByteSize - cursor.position

def passed (cursor : Cursor) : Except Halt Turn := do
  return .again (← cursor.advance content 1)

def passedOver (byte : Char) (cursor : Cursor) : Except Halt Turn :=
  passed content (if byte = '\n' then cursor.nextLine else cursor)

/-! ## Runs of bytes -/

def spanTurn (goesOn : Char → Bool) (cursor : Cursor) : Except Halt Turn :=
  match cursor.peek content 0 with
  | some byte => if goesOn byte then passed content cursor else .ok (.done cursor)
  | none => .ok (.done cursor)

/-- The end of the bytes of a kind. -/
def span (goesOn : Char → Bool) (cursor : Cursor) : Except Halt Cursor :=
  repeated content (spanTurn content goesOn) cursor

def blankTurn (cursor : Cursor) : Except Halt Turn :=
  match cursor.peek content 0 with
  | some byte => if isBlank byte then passedOver content byte cursor else .ok (.done cursor)
  | none => .ok (.done cursor)

/-- The end of the blanks that `\z` swallows. -/
def blanks (cursor : Cursor) : Except Halt Cursor :=
  repeated content (blankTurn content) cursor

/-! ## Long brackets -/

/-- The level of a long bracket that opens at a bracket, if one does.  The bytes
behind the bracket are looked at, but the scanner stays where it is. -/
def level? (cursor : Cursor) : Except Halt (Option Nat) := do
  let inner : Cursor := { cursor with position := cursor.position + 1 }
  let last ← span content (· = '=') inner
  return if last.peek content 0 = some '[' then some (last.position - inner.position) else none

/-- Whether a long bracket of a level closes at a bracket. -/
def closes (level : Nat) (cursor : Cursor) : Bool :=
  (List.range level).all (fun index => cursor.peek content (index + 1) = some '=') &&
    cursor.peek content (level + 1) = some ']'

/-- A turn inside a long bracket. -/
def longTurn (level : Nat) (cause : FaultCause) (cursor : Cursor) : Except Halt Turn :=
  match cursor.peek content 0 with
  | none => cursor.fail cause
  | some byte =>
    if byte = ']' && closes content level cursor then do
      return .done (← cursor.advance content (level + 2))
    else passedOver content byte cursor

/-- The end of a long bracket of a level that opens here. -/
def longEnd (level : Nat) (cause : FaultCause) (cursor : Cursor) : Except Halt Cursor := do
  let inside ← cursor.advance content (level + 2)
  repeated content (longTurn content level cause) inside

/-! ## Gaps -/

/-- The level of a long comment, behind its dashes, if it is one. -/
def commentLevel? (cursor : Cursor) : Except Halt (Option Nat) :=
  if cursor.peek content 0 = some '[' then level? content cursor else .ok none

/-- The end of a comment that begins here. -/
def commentEnd (cursor : Cursor) : Except Halt Cursor := do
  let inside ← cursor.advance content 2
  match ← commentLevel? content inside with
  | some level => longEnd content level .unfinishedLongComment inside
  | none => span content (· ≠ '\n') inside

/-- A turn between two tokens. -/
def gapTurn (cursor : Cursor) : Except Halt Turn :=
  match cursor.peek content 0 with
  | none => .ok (.done cursor)
  | some byte =>
    if isBlank byte then passedOver content byte cursor
    else if byte = '-' && cursor.peek content 1 = some '-' then do
      return .again (← commentEnd content cursor)
    else .ok (.done cursor)

/-- The end of the blanks and comments that begin here. -/
def gap (cursor : Cursor) : Except Halt Cursor :=
  repeated content (gapTurn content) cursor

/-! ## Short strings -/

/-- The end of a break whose second letter may stand here.  Two different
breaks count as one. -/
def breakEnd (first : Char) (cursor : Cursor) : Except Halt Cursor :=
  if (cursor.peek content 0).any (fun second => isBreak second && second ≠ first) then
    cursor.advance content 1
  else .ok cursor

/-- A turn at a backslash. -/
def escapeTurn (cursor : Cursor) : Except Halt Turn :=
  match cursor.peek content 1 with
  | none => cursor.fail .unfinishedString
  | some byte =>
    if isBreak byte then do
      let next ← cursor.advance content 2
      let last ← breakEnd content byte next
      return .again last.nextLine
    else if byte = 'z' then do
      let next ← cursor.advance content 2
      return .again (← blanks content next)
    else do
      return .again (← cursor.advance content 2)

/-- A turn inside a short string. -/
def shortTurn (quote : Char) (cursor : Cursor) : Except Halt Turn :=
  match cursor.peek content 0 with
  | none => cursor.fail .unfinishedString
  | some byte =>
    if isBreak byte then cursor.fail .unfinishedString
    else if byte = '\\' then escapeTurn content cursor
    else if byte = quote then do
      return .done (← cursor.advance content 1)
    else passed content cursor

/-- The end of a short string that opens here. -/
def shortEnd (quote : Char) (cursor : Cursor) : Except Halt Cursor := do
  let inside ← cursor.advance content 1
  repeated content (shortTurn content quote) inside

/-! ## Numerals -/

def isSign (letter : Char) : Bool :=
  letter = '+' || letter = '-'

/-- A turn in a numeral.  A sign belongs to it only directly after an exponent mark. -/
def numeralTurn (marks : List Char) (cursor : Cursor) : Except Halt Turn :=
  match cursor.peek content 0 with
  | none => .ok (.done cursor)
  | some byte =>
    if marks.contains byte then do
      let next ← cursor.advance content 1
      if (next.peek content 0).any isSign then passed content next else return .again next
    else if Digits.isHexadecimal byte || byte = '.' then passed content cursor
    else .ok (.done cursor)

def startsHexadecimal (cursor : Cursor) : Bool :=
  cursor.peek content 0 = some '0' &&
    (cursor.peek content 1).any fun mark => mark = 'x' || mark = 'X'

/-- The end of the bytes that go on a numeral. -/
def numeralBody (cursor : Cursor) : Except Halt Cursor :=
  if startsHexadecimal content cursor then do
    let inside ← cursor.advance content 2
    repeated content (numeralTurn content ['P', 'p']) inside
  else repeated content (numeralTurn content ['E', 'e']) cursor

/-- The end of a numeral that begins here. -/
def numeralEnd (cursor : Cursor) : Except Halt Cursor := do
  let last ← numeralBody content cursor
  if (last.peek content 0).any isNamePart then last.fail .malformedNumber
  else
    let text ← cursor.bytes content last.position
    if isNumeral text then return last else last.fail .malformedNumber

end Loops

/-! ## Tokens -/

variable (content : String)

/-- The kind and the end of the word that begins here. -/
def wordEnd (cursor : Cursor) : Except Halt (TokenKind × Cursor) := do
  let last ← span content isNamePart cursor
  let word ← cursor.slice content last.position
  return (if isKeyword word then .keyword else .name, last)

/-- The kind and the end of what begins at a bracket: a long string, or the
bracket as a symbol. -/
def bracketEnd (cursor : Cursor) : Except Halt (TokenKind × Cursor) := do
  match ← level? content cursor with
  | some level => return (.string, ← longEnd content level .unfinishedLongString cursor)
  | none =>
    if cursor.peek content 1 = some '=' then cursor.fail .invalidLongDelimiter
    else return (.symbol, ← cursor.advance content 1)

/-- The kind and the end of the symbol that begins here. -/
def symbolEnd (cursor : Cursor) : Except Halt (TokenKind × Cursor) := do
  let rest ← cursor.slice content content.utf8ByteSize
  match symbols.find? fun symbol => symbol.toList.isPrefixOf rest with
  | some symbol => return (.symbol, ← cursor.advance content symbol.utf8ByteSize)
  | none => cursor.fail (.unexpectedSymbol (rest.head?.getD '\x00'))

/-- The kind and the end of the token that begins with a byte here. -/
def tokenEnd (byte : Char) (cursor : Cursor) : Except Halt (TokenKind × Cursor) :=
  if isNameStart byte then wordEnd content cursor
  else if Digits.isDecimal byte ||
      (byte = '.' && (cursor.peek content 1).any Digits.isDecimal) then do
    return (.number, ← numeralEnd content cursor)
  else if byte = '"' || byte = '\'' then do
    return (.string, ← shortEnd content byte cursor)
  else if byte = '[' then bracketEnd content cursor
  else symbolEnd content cursor

/-- The next token behind a place and where it ends, or nothing where none is left. -/
def nextToken (cursor : Cursor) : Except Halt (Option (Token × Cursor)) := do
  let first ← gap content cursor
  match first.peek content 0 with
  | none => return none
  | some byte =>
    let (kind, last) ← tokenEnd content byte first
    let letters ← first.slice content last.position
    return some ({ kind := kind, letters := letters }, last)

/-- The tokens behind a place. -/
def scanFrom (cursor : Cursor) : Except Halt (List Token) :=
  match nextToken content cursor with
  | .error halt => .error halt
  | .ok none => .ok []
  | .ok (some (token, next)) =>
    if _onward : cursor.position < next.position ∧ next.position ≤ content.utf8ByteSize then
      (scanFrom next).map (token :: ·)
    else .error (.stuck next.position)
termination_by content.utf8ByteSize - cursor.position

/-- The places where the scanner looks for a token: the start of the text, and
the end of each token that was found. -/
inductive Reached : Cursor → Prop
  | start : Reached start
  | next {cursor last : Cursor} {token : Token} (reached : Reached cursor)
    (found : nextToken content cursor = .ok (some (token, last))) : Reached last

/-- The tokens of a script. -/
def scan : Except Halt (List Token) :=
  scanFrom content start

end Scanner

end Lua

end LogPipeline
