import LogPipeline.Yaml.ScalarText

namespace LogPipeline

namespace Yaml

/-!
# Splitting a document into tokens

A document is split from left to right.  Indentation opens and closes blocks:
a block collection opens where an entry or a key stands to the right of the
enclosing block, and closes where a token stands to the left of it.  A key
without an indicator is recognised only at the colon after it, so the place of
every token that could begin one is remembered until the line ends, and the
announcement of the key is put there afterwards.

Anything that is no well-formed document gives no tokens at all.
-/

/-- A place where a key could begin: how many tokens stand before it, and
whether nothing but a key can stand there. -/
structure KeyPlace where
  tokensBefore : Nat
  mark : Mark
  required : Bool

/-- Where the splitting stands between two tokens. -/
structure Splitter where
  cursor : Cursor
  tokens : Array Token := #[]
  /-- The column of the innermost block, none outside all blocks. -/
  column : Option Nat := none
  /-- The columns of the blocks around the innermost one. -/
  outer : List (Option Nat) := []
  /-- How many flow collections are open. -/
  flowDepth : Nat := 0
  /-- For the outermost level and each open flow collection, innermost first,
  the place where a key could begin. -/
  places : List (Option KeyPlace) := [none]
  /-- Whether a key could begin at the next token. -/
  keyAllowed : Bool := true

namespace Splitter

/-- The longest key without an indicator, in bytes. -/
def longestKey : Nat := 1024

def inFlow (splitter : Splitter) : Bool :=
  0 < splitter.flowDepth

def mark (splitter : Splitter) : Mark :=
  splitter.cursor.mark

/-- Whether a column lies to the right of the innermost block. -/
def isInside (splitter : Splitter) (column : Nat) : Bool :=
  match splitter.column with
  | none => true
  | some enclosing => enclosing < column

/-- The column from which a scalar of the innermost block may go on. -/
def contentColumn (splitter : Splitter) : Nat :=
  match splitter.column with
  | none => 0
  | some enclosing => enclosing + 1

def emit (splitter : Splitter) (kind : TokenKind) (start stop : Mark) : Splitter :=
  { splitter with tokens := splitter.tokens.push { kind := kind, start := start, stop := stop } }

/-- One more token before those that follow a given number of tokens. -/
def emitAt (splitter : Splitter) (position : Nat) (kind : TokenKind) (mark : Mark) : Splitter :=
  { splitter with
    tokens := splitter.tokens.insertIdxIfInBounds position
      { kind := kind, start := mark, stop := mark } }

/-- A token of some characters that come next. -/
def emitNext (splitter : Splitter) (kind : TokenKind) (count : Nat) : Splitter :=
  let after := splitter.cursor.skip count
  { splitter.emit kind splitter.mark after.mark with cursor := after }

/-! ## Gaps -/

/-- The splitter after the blanks, comments and line ends before the next
token.  A tab at the start of a line is no such blank where a key could begin. -/
def skipGap (fuel : Nat) (splitter : Splitter) : Splitter :=
  match fuel with
  | 0 => splitter
  | fuel + 1 =>
    let cursor := splitter.cursor
    let start :=
      if cursor.mark.column = 0 && cursor.startsWith '\ufeff' then cursor.next else cursor
    let isGap (letter : Char) : Bool :=
      letter = ' ' || ((splitter.inFlow || !splitter.keyAllowed) && letter = '\t')
    let afterBlanks := start.skipWhile isGap
    let afterComment :=
      if afterBlanks.startsWith '#' then afterBlanks.skipWhile (!isBreak ·) else afterBlanks
    if afterComment.nextIs isBreak then
      skipGap fuel
        { splitter with
          cursor := afterComment.skipBreak
          keyAllowed := splitter.keyAllowed || !splitter.inFlow }
    else { splitter with cursor := afterComment }

/-! ## Keys and blocks -/

/-- The splitter without the places that a key can no longer begin at, because
the line has ended or too much has followed; nothing where a key had to begin. -/
def dropStalePlaces (splitter : Splitter) : Option Splitter := do
  let isStale (place : KeyPlace) : Bool :=
    place.mark.line < splitter.mark.line || place.mark.offset + longestKey < splitter.mark.offset
  let keep (place : Option KeyPlace) : Option (Option KeyPlace) :=
    match place with
    | some held =>
      if isStale held then (if held.required then none else some none) else some (some held)
    | none => some none
  let places ← splitter.places.mapM keep
  some { splitter with places := places }

/-- The splitter without the innermost place; nothing where a key had to begin
there. -/
def dropPlace (splitter : Splitter) : Option Splitter :=
  match splitter.places with
  | some place :: rest =>
    if place.required then none else some { splitter with places := none :: rest }
  | _ => some splitter

/-- The splitter with the place of the next token remembered, where a key could
begin. -/
def savePlace (splitter : Splitter) : Option Splitter :=
  if splitter.keyAllowed then do
    let dropped ← splitter.dropPlace
    let place : KeyPlace :=
      { tokensBefore := splitter.tokens.size
        mark := splitter.mark
        required := !splitter.inFlow && splitter.column = some splitter.mark.column }
    some { dropped with places := some place :: dropped.places.tail }
  else some splitter

/-- The splitter with a block opened at a column, where the column lies inside
the innermost block: the token that opens it stands after a given number of
tokens. -/
def openBlock (splitter : Splitter) (column position : Nat) (kind : TokenKind) (mark : Mark) :
    Splitter :=
  if splitter.inFlow || !splitter.isInside column then splitter
  else
    { splitter.emitAt position kind mark with
      column := some column
      outer := splitter.column :: splitter.outer }

def openBlockHere (splitter : Splitter) (kind : TokenKind) : Splitter :=
  splitter.openBlock splitter.mark.column splitter.tokens.size kind splitter.mark

/-- The splitter with the innermost blocks closed as long as a condition on
their column holds. -/
def closeBlocksWhile (condition : Nat → Bool) (splitter : Splitter) :
    List (Option Nat) → Splitter
  | [] => splitter
  | enclosing :: rest =>
    match splitter.column with
    | some column =>
      if condition column then
        closeBlocksWhile condition
          { splitter.emit .blockEnd splitter.mark splitter.mark with
            column := enclosing
            outer := rest }
          rest
      else splitter
    | none => splitter

/-- The splitter with the blocks closed that lie to the right of the next token. -/
def closeBlocks (splitter : Splitter) : Splitter :=
  if splitter.inFlow then splitter
  else splitter.closeBlocksWhile (splitter.mark.column < ·) splitter.outer

def closeAllBlocks (splitter : Splitter) : Splitter :=
  if splitter.inFlow then splitter
  else splitter.closeBlocksWhile (fun _ => true) splitter.outer

/-! ## Directives -/

/-- A number of a version: at most nine digits. -/
def readVersionNumber (cursor : Cursor) : Option (Nat × Cursor) :=
  let (digits, after) := cursor.takeWhile Digits.isDecimal
  if 9 < digits.length then none
  else (Digits.read? 10 digits).map fun number => (number, after)

/-- Two numbers of a version with a point between them. -/
def readVersion (cursor : Cursor) : Option (TokenKind × Cursor) := do
  let (major, afterMajor) ← readVersionNumber (cursor.skipWhile isBlank)
  if !afterMajor.startsWith '.' then none
  else
    let (minor, after) ← readVersionNumber afterMajor.next
    some (.versionDirective major minor, after)

/-- A tag handle: an exclamation mark, letters of a word, and another mark,
which a directive cannot leave out unless the first stands alone. -/
def readTagHandle (directive : Bool) (cursor : Cursor) : Option (List Char × Cursor) :=
  if !cursor.startsWith '!' then none
  else
    let (word, after) := cursor.next.takeWhile isWordPart
    if after.startsWith '!' then some ('!' :: (word ++ ['!']), after.next)
    else if directive && !word.isEmpty then none
    else some ('!' :: word, after)

/-- A character of a tag that stands for itself. -/
def isTagPart (flow : Bool) (letter : Char) : Bool :=
  isWordPart letter ||
    [';', '/', '?', ':', '@', '&', '=', '+', '$', '.', '!', '~', '*', '\'', '(', ')'].contains
      letter ||
    (flow && [',', '[', ']'].contains letter)

/-- The byte that two hexadecimal digits after a percent sign stand for. -/
def readTagByte (cursor : Cursor) : Option (UInt8 × Cursor) :=
  match cursor.rest with
  | '%' :: high :: low :: _ =>
    (Digits.read? 16 [high, low]).map fun byte => (UInt8.ofNat byte, cursor.skip 3)
  | _ => none

/-- A number of bytes that go on a character in a tag. -/
def readTagBytes (count : Nat) (cursor : Cursor) : Option (List UInt8 × Cursor) :=
  match count with
  | 0 => some ([], cursor)
  | count + 1 => do
    let (byte, after) ← readTagByte cursor
    if 0x80 ≤ byte ∧ byte < 0xC0 then do
      let (others, further) ← readTagBytes count after
      some (byte :: others, further)
    else none

/-- The bytes of a character in a tag, of which the first tells how many follow. -/
def readTagEscape (cursor : Cursor) : Option (List UInt8 × Cursor) := do
  let (byte, after) ← readTagByte cursor
  let count ←
    if byte < 0x80 then some 0
    else if byte < 0xC0 then none
    else if byte < 0xE0 then some 1
    else if byte < 0xF0 then some 2
    else if byte < 0xF8 then some 3
    else none
  let (others, further) ← readTagBytes count after
  some (byte :: others, further)

/-- The bytes of a tag that come next. -/
def readTagText (flow : Bool) (fuel : Nat) (cursor : Cursor) : Option (List UInt8 × Cursor) :=
  match fuel with
  | 0 => none
  | fuel + 1 =>
    match cursor.rest with
    | [] => some ([], cursor)
    | letter :: _ =>
      if letter = '%' then do
        let (meant, after) ← readTagEscape cursor
        let (others, further) ← readTagText flow fuel after
        some (meant ++ others, further)
      else if isTagPart flow letter then do
        let (others, further) ← readTagText flow fuel cursor.next
        some (Tag.bytesOf [letter] ++ others, further)
      else some ([], cursor)

/-- The bytes of a tag that come next, at least one unless some letters came before. -/
def readTagSuffix (flow : Bool) (before : List Char) (cursor : Cursor) :
    Option (List UInt8 × Cursor) := do
  let (bytes, after) ← readTagText flow (cursor.rest.length + 1) cursor
  if before.isEmpty && bytes.isEmpty then none
  else some (Tag.bytesOf before.tail ++ bytes, after)

/-- A handle and what it stands for. -/
def readTagDirective (cursor : Cursor) : Option (TokenKind × Cursor) := do
  let (handle, afterHandle) ← readTagHandle true (cursor.skipWhile isBlank)
  if !afterHandle.nextIs isBlank then none
  else
    let (leading, after) ← readTagSuffix true [] (afterHandle.skipWhile isBlank)
    if after.isGapAt 0 then some (.tagDirective handle leading, after) else none

/-- A directive up to the end of its line. -/
def readDirective (cursor : Cursor) : Option (TokenKind × Mark × Cursor) := do
  let (name, afterName) := cursor.next.takeWhile isWordPart
  if name.isEmpty || !afterName.isGapAt 0 then none
  else
    let (kind, after) ←
      if name = "YAML".toList then readVersion afterName
      else if name = "TAG".toList then readTagDirective afterName
      else none
    let afterBlanks := after.skipWhile isBlank
    let afterComment :=
      if afterBlanks.startsWith '#' then afterBlanks.skipWhile (!isBreak ·) else afterBlanks
    if afterComment.isLineEnd then some (kind, after.mark, afterComment.skipBreak) else none

/-! ## Anchors, aliases and tags -/

/-- The name of an anchor or an alias, after its indicator. -/
def readAnchorName (cursor : Cursor) : Option (List Char × Cursor) :=
  let (name, after) := cursor.next.takeWhile isWordPart
  let ends := after.isGapAt 0 ||
    after.nextIs (['?', ':', ',', ']', '\x7d', '%', '@', '\x60'].contains ·)
  if name.isEmpty || !ends then none else some (name, after)

/-- The handle and the suffix of a tag.  A mark with nothing after it is a
suffix without a handle. -/
def readTagParts (cursor : Cursor) : Option (List Char × List UInt8 × Cursor) :=
  if cursor.at? 1 = some '<' then do
    let (suffix, after) ← readTagSuffix true [] (cursor.skip 2)
    if after.startsWith '>' then some ([], suffix, after.next) else none
  else do
    let (handle, afterHandle) ← readTagHandle false cursor
    if 1 < handle.length && handle.getLast? = some '!' then
      let (suffix, after) ← readTagSuffix false [] afterHandle
      some (handle, suffix, after)
    else
      let (suffix, after) ← readTagSuffix false handle afterHandle
      if (Tag.untilZero suffix).isEmpty then some ([], [Tag.mark], after)
      else some (['!'], suffix, after)

/-- A tag, which must end before a gap, or before a comma in a flow collection. -/
def readTag (flow : Bool) (cursor : Cursor) : Option (TokenKind × Cursor) := do
  let (handle, suffix, after) ← readTagParts cursor
  if after.isGapAt 0 || (flow && after.startsWith ',') then some (.tag handle suffix, after)
  else none

/-! ## Tokens -/

def fetchEnd (splitter : Splitter) : Option Splitter := do
  let mark := splitter.mark
  let atLine : Mark :=
    if mark.column = 0 then mark else { mark with line := mark.line + 1, column := 0 }
  let moved := { splitter with cursor := { splitter.cursor with mark := atLine } }
  let closed ← moved.closeAllBlocks.dropPlace
  some ({ closed with keyAllowed := false }.emit .streamEnd atLine atLine)

def fetchDirective (splitter : Splitter) : Option Splitter := do
  let closed ← splitter.closeAllBlocks.dropPlace
  let (kind, stop, after) ← readDirective splitter.cursor
  some { closed.emit kind splitter.mark stop with cursor := after, keyAllowed := false }

def fetchBoundary (splitter : Splitter) (kind : TokenKind) : Option Splitter := do
  let closed ← splitter.closeAllBlocks.dropPlace
  some ({ closed with keyAllowed := false }.emitNext kind 3)

def fetchFlowStart (splitter : Splitter) (kind : TokenKind) : Option Splitter := do
  let saved ← splitter.savePlace
  let deeper :=
    { saved with
      places := none :: saved.places
      flowDepth := saved.flowDepth + 1
      keyAllowed := true }
  some (deeper.emitNext kind 1)

def fetchFlowEnd (splitter : Splitter) (kind : TokenKind) : Option Splitter := do
  let dropped ← splitter.dropPlace
  let shallower :=
    { dropped with
      places := if dropped.inFlow then dropped.places.tail else dropped.places
      flowDepth := dropped.flowDepth - 1
      keyAllowed := false }
  some (shallower.emitNext kind 1)

def fetchFlowEntry (splitter : Splitter) : Option Splitter := do
  let dropped ← splitter.dropPlace
  some ({ dropped with keyAllowed := true }.emitNext .flowEntry 1)

/-- The line of a block sequence's entry. -/
def fetchBlockEntry (splitter : Splitter) : Option Splitter :=
  if !splitter.inFlow && !splitter.keyAllowed then none
  else do
    let opened := if splitter.inFlow then splitter else splitter.openBlockHere .blockSequenceStart
    let dropped ← opened.dropPlace
    some ({ dropped with keyAllowed := true }.emitNext .blockEntry 1)

/-- The indicator of a key. -/
def fetchKey (splitter : Splitter) : Option Splitter :=
  if !splitter.inFlow && !splitter.keyAllowed then none
  else do
    let opened := if splitter.inFlow then splitter else splitter.openBlockHere .blockMappingStart
    let dropped ← opened.dropPlace
    some ({ dropped with keyAllowed := !dropped.inFlow }.emitNext .key 1)

/-- The indicator of a value: it makes a key of what began at the remembered
place, or stands without a key before it. -/
def fetchValue (splitter : Splitter) : Option Splitter :=
  match splitter.places with
  | some place :: rest =>
    let announced := splitter.emitAt place.tokensBefore .key place.mark
    let opened :=
      announced.openBlock place.mark.column place.tokensBefore .blockMappingStart place.mark
    some ({ opened with places := none :: rest, keyAllowed := false }.emitNext .value 1)
  | _ =>
    if !splitter.inFlow && !splitter.keyAllowed then none
    else
      let opened := if splitter.inFlow then splitter else splitter.openBlockHere .blockMappingStart
      some ({ opened with keyAllowed := !opened.inFlow }.emitNext .value 1)

/-- A token with content, before which a key could begin. -/
def fetchContent (splitter : Splitter) (read : Cursor → Option (TokenKind × Cursor)) :
    Option Splitter := do
  let saved ← splitter.savePlace
  let (kind, after) ← read splitter.cursor
  some { saved.emit kind splitter.mark after.mark with cursor := after, keyAllowed := false }

/-- A block scalar. -/
def fetchBlockScalar (splitter : Splitter) (bound : Nat) (folded : Bool) : Option Splitter := do
  let dropped ← splitter.dropPlace
  let (content, after) ← readBlock folded splitter.column bound splitter.cursor.next
  let style : ScalarStyle := if folded then .folded else .literal
  some { dropped.emit (.scalar style content) splitter.mark after.mark with
    cursor := after, keyAllowed := true }

/-- A plain scalar.  Where a line ended after it, a key could begin next. -/
def fetchPlain (splitter : Splitter) (bound : Nat) : Option Splitter := do
  let saved ← splitter.savePlace
  let cursor := splitter.cursor
  let plain ← readPlain splitter.inFlow splitter.contentColumn bound cursor.mark {} cursor
  some { saved.emit (.scalar .plain plain.content) cursor.mark plain.stop with
    cursor := plain.cursor, keyAllowed := plain.broken }

def readQuotedToken (single : Bool) (bound : Nat) (cursor : Cursor) :
    Option (TokenKind × Cursor) := do
  let (content, after) ← readQuoted single bound cursor.next
  some (.scalar (if single then .singleQuoted else .doubleQuoted) content, after)

/-- Whether a plain scalar can begin at a cursor. -/
def canBeginPlain (flow : Bool) (cursor : Cursor) (letter : Char) : Bool :=
  let isIndicator :=
    ['-', '?', ':', ',', '[', ']', '\x7b', '\x7d', '#', '&', '*', '!', '|', '>', '\'', '"',
      '%', '@', '\x60'].contains letter
  (!isBlank letter && !isBreak letter && !isIndicator) ||
    ((letter = '-' || (!flow && (letter = '?' || letter = ':'))) && !cursor.isGapAt 1)

/-- The splitter after the token that begins with a character.  There are at
least two fewer letters left than `bound`. -/
def fetchAt (splitter : Splitter) (bound : Nat) (letter : Char) : Option Splitter :=
  let cursor := splitter.cursor
  let flow := splitter.inFlow
  if cursor.mark.column = 0 && letter = '%' then splitter.fetchDirective
  else if cursor.isRuleOf '-' then splitter.fetchBoundary .documentStart
  else if cursor.isRuleOf '.' then splitter.fetchBoundary .documentEnd
  else if letter = '[' then splitter.fetchFlowStart .flowSequenceStart
  else if letter = '\x7b' then splitter.fetchFlowStart .flowMappingStart
  else if letter = ']' then splitter.fetchFlowEnd .flowSequenceEnd
  else if letter = '\x7d' then splitter.fetchFlowEnd .flowMappingEnd
  else if letter = ',' then splitter.fetchFlowEntry
  else if letter = '-' && cursor.isGapAt 1 then splitter.fetchBlockEntry
  else if letter = '?' && (flow || cursor.isGapAt 1) then splitter.fetchKey
  else if letter = ':' && (flow || cursor.isGapAt 1) then splitter.fetchValue
  else if letter = '*' then
    splitter.fetchContent fun place =>
      (readAnchorName place).map fun (name, after) => (.alias name, after)
  else if letter = '&' then
    splitter.fetchContent fun place =>
      (readAnchorName place).map fun (name, after) => (.anchor name, after)
  else if letter = '!' then splitter.fetchContent (readTag flow)
  else if letter = '|' && !flow then splitter.fetchBlockScalar bound false
  else if letter = '>' && !flow then splitter.fetchBlockScalar bound true
  else if letter = '\'' then splitter.fetchContent (readQuotedToken true bound)
  else if letter = '"' then splitter.fetchContent (readQuotedToken false bound)
  else if canBeginPlain flow cursor letter then splitter.fetchPlain bound
  else none

/-- The tokens from a splitter on, up to the end of the document.  Every token
before the end takes a letter, so that the steps never run out where there are
more of them than letters. -/
def run (fuel : Nat) (splitter : Splitter) : Option (Array Token) :=
  match fuel with
  | 0 => none
  | fuel + 1 => do
    let ready := splitter.skipGap (fuel + 1)
    let fresh ← ready.dropStalePlaces
    let placed := fresh.closeBlocks
    match placed.cursor.rest with
    | [] => (placed.fetchEnd).map (·.tokens)
    | letter :: _ =>
      let next ← placed.fetchAt (fuel + 2) letter
      run fuel next

end Splitter

/-- The tokens of a document. -/
def tokens? (letters : List Char) : Option (List Token) :=
  if letters.all isAllowed then
    (Splitter.run (letters.length + 1) { cursor := Cursor.ofText letters }).map Array.toList
  else none

end Yaml

end LogPipeline
