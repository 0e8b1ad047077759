namespace LogPipeline

namespace Yaml

/-!
# Positions and characters of a document

A document is read from left to right.  A position counts bytes from the start
of the document, lines, and characters from the start of the line, all from
zero.  A line ends with a carriage return, a line feed, both in this order, or
one of three separators beyond ASCII.
-/

/-- A position in a document. -/
structure Mark where
  offset : Nat := 0
  line : Nat := 0
  column : Nat := 0
deriving DecidableEq, Inhabited

/-- What is left of a document, and where it starts. -/
structure Cursor where
  mark : Mark
  rest : List Char

/-- A character that a document may hold. -/
def isAllowed (letter : Char) : Bool :=
  let code := letter.toNat
  letter = '\t' || letter = '\n' || letter = '\r' || code = 0x85 ||
    (0x20 ≤ code && code ≤ 0x7E) || (0xA0 ≤ code && code ≤ 0xD7FF) ||
    (0xE000 ≤ code && code ≤ 0xFFFD) || 0x10000 ≤ code

def isBreak (letter : Char) : Bool :=
  letter = '\r' || letter = '\n' || letter = '\u0085' || letter = '\u2028' || letter = '\u2029'

def isBlank (letter : Char) : Bool :=
  letter = ' ' || letter = '\t'

/-- A character of a word: an ASCII letter or digit, a line or an underscore. -/
def isWordPart (letter : Char) : Bool :=
  ('0' ≤ letter && letter ≤ '9') || ('a' ≤ letter && letter ≤ 'z') ||
    ('A' ≤ letter && letter ≤ 'Z') || letter = '_' || letter = '-'

namespace Cursor

def ofText (letters : List Char) : Cursor where
  mark := {}
  rest := letters

def at? (cursor : Cursor) (distance : Nat) : Option Char :=
  cursor.rest[distance]?

def isEnd (cursor : Cursor) : Bool :=
  cursor.rest.isEmpty

def startsWith (cursor : Cursor) (letter : Char) : Bool :=
  cursor.rest.head? = some letter

def nextIs (cursor : Cursor) (property : Char → Bool) : Bool :=
  cursor.rest.head?.any property

/-- Whether a blank, a line end or the end of the document comes at a distance. -/
def isGapAt (cursor : Cursor) (distance : Nat) : Bool :=
  match cursor.at? distance with
  | none => true
  | some letter => isBlank letter || isBreak letter

def isLineEnd (cursor : Cursor) : Bool :=
  match cursor.rest with
  | [] => true
  | letter :: _ => isBreak letter

/-- The cursor one character further on the same line. -/
def next (cursor : Cursor) : Cursor :=
  match cursor.rest with
  | [] => cursor
  | letter :: rest =>
    { mark := { cursor.mark with
        offset := cursor.mark.offset + letter.utf8Size
        column := cursor.mark.column + 1 }
      rest := rest }

def skip (cursor : Cursor) : Nat → Cursor
  | 0 => cursor
  | count + 1 => cursor.next.skip count

/-- The position at the start of the line after a line end of some bytes. -/
def lineAfter (mark : Mark) (bytes : Nat) : Mark where
  offset := mark.offset + bytes
  line := mark.line + 1
  column := 0

/-- The cursor after the line end that comes next, and the line end as content:
one line feed, or the separator itself for the two that are kept. -/
def readBreak (cursor : Cursor) : List Char × Cursor :=
  match cursor.rest with
  | '\r' :: '\n' :: rest => (['\n'], { mark := lineAfter cursor.mark 2, rest := rest })
  | letter :: rest =>
    if isBreak letter then
      let content := if letter = '\u2028' || letter = '\u2029' then letter else '\n'
      ([content], { mark := lineAfter cursor.mark letter.utf8Size, rest := rest })
    else ([], cursor)
  | [] => ([], cursor)

def skipBreak (cursor : Cursor) : Cursor :=
  cursor.readBreak.2

/-- The characters with a property that come next, none of them a line end, and
the cursor after them. -/
def takeWhile (cursor : Cursor) (property : Char → Bool) : List Char × Cursor :=
  let taken := cursor.rest.takeWhile property
  (taken, cursor.skip taken.length)

def skipWhile (cursor : Cursor) (property : Char → Bool) : Cursor :=
  (cursor.takeWhile property).2

/-- Whether a line of its own starts with three equal characters and a gap. -/
def isRuleOf (cursor : Cursor) (letter : Char) : Bool :=
  cursor.mark.column = 0 && cursor.rest.take 3 = [letter, letter, letter] && cursor.isGapAt 3

/-- Whether the line starts a document or ends one. -/
def isDocumentBoundary (cursor : Cursor) : Bool :=
  cursor.isRuleOf '-' || cursor.isRuleOf '.'

end Cursor

end Yaml

end LogPipeline
