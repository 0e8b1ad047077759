import LogPipeline.Number.Digits
import LogPipeline.Yaml.Token

namespace LogPipeline

namespace Yaml

/-!
# The content of scalars

A scalar is written plainly, between single or double quotes, or as a block of
lines.  In the first three forms a single line end between two lines of
content is a space, and further ones are kept; a literal block keeps all line
ends, and a folded one joins lines that do not start with a blank.
-/

/-- The line ends between two lines of content as content: a single one is a
space, the first of several is left out, and a separator beyond ASCII is kept. -/
def foldedBreaks (first others : List Char) : List Char :=
  match first with
  | ['\n'] => if others.isEmpty then [' '] else others
  | _ => first ++ others

/-- Blanks and line ends between two pieces of content: the blanks where no
line ends, else the first line end and the others. -/
structure Spacing where
  blanks : List Char := []
  first : List Char := []
  others : List Char := []
  broken : Bool := false

namespace Spacing

def content (spacing : Spacing) : List Char :=
  if spacing.broken then foldedBreaks spacing.first spacing.others else spacing.blanks

/-- Spacing with one more blank; blanks after a line end are not kept. -/
def addBlank (spacing : Spacing) (letter : Char) : Spacing :=
  if spacing.broken then spacing else { spacing with blanks := spacing.blanks ++ [letter] }

/-- Spacing with one more line end; blanks before it are not kept. -/
def addBreak (spacing : Spacing) (content : List Char) : Spacing :=
  if spacing.broken then { spacing with others := spacing.others ++ content }
  else { spacing with blanks := [], first := content, broken := true }

end Spacing

/-- Blanks and line ends from a cursor on, added to what is there.  A tab left
of the given column at the start of a line is refused. -/
def readSpacing (tabLimit : Nat) (fuel : Nat) (spacing : Spacing) (cursor : Cursor) :
    Option (Spacing × Cursor) :=
  match fuel with
  | 0 => none
  | fuel + 1 =>
    match cursor.rest with
    | [] => some (spacing, cursor)
    | letter :: _ =>
      if isBlank letter then
        if spacing.broken && cursor.mark.column < tabLimit && letter = '\t' then none
        else readSpacing tabLimit fuel (spacing.addBlank letter) cursor.next
      else if isBreak letter then
        let (content, after) := cursor.readBreak
        readSpacing tabLimit fuel (spacing.addBreak content) after
      else some (spacing, cursor)

/-! ## Plain scalars -/

def isFlowIndicator (letter : Char) : Bool :=
  letter = ',' || letter = '[' || letter = ']' || letter = '\x7b' || letter = '\x7d'

/-- How the letters of a plain scalar end before the next blank or line end:
the letters, and the cursor after them.  In a flow collection a colon directly
before an indicator is refused. -/
def readPlainRun (flow : Bool) (fuel : Nat) (cursor : Cursor) : Option (List Char × Cursor) :=
  match fuel with
  | 0 => none
  | fuel + 1 =>
    match cursor.rest with
    | [] => some ([], cursor)
    | letter :: rest =>
      if isBlank letter || isBreak letter then some ([], cursor)
      else if flow && letter = ':' &&
          rest.head?.any (fun next => isFlowIndicator next || next = '?')
      then none
      else if (letter = ':' && cursor.isGapAt 1) || (flow && isFlowIndicator letter) then
        some ([], cursor)
      else do
        let (others, after) ← readPlainRun flow fuel cursor.next
        some (letter :: others, after)

/-- A plain scalar that has been read: its content, where its last letter ends,
where reading goes on, and whether a line ended after it. -/
structure PlainText where
  content : List Char
  stop : Mark
  cursor : Cursor
  broken : Bool

/-- What is left of a plain scalar from a cursor on, after some spacing.  It goes
on over lines that are indented beyond the enclosing block.  `stop` is where its
last letter before the cursor ends. -/
def readPlain (flow : Bool) (column : Nat) (fuel : Nat) (stop : Mark) (spacing : Spacing)
    (cursor : Cursor) : Option PlainText :=
  match fuel with
  | 0 => none
  | fuel + 1 =>
    if cursor.isDocumentBoundary || cursor.startsWith '#' then
      some { content := [], stop := stop, cursor := cursor, broken := spacing.broken }
    else do
      let (letters, after) ← readPlainRun flow (fuel + 1) cursor
      let taken := if letters.isEmpty then [] else spacing.content ++ letters
      let reached := if letters.isEmpty then stop else after.mark
      let passed := if letters.isEmpty then spacing else {}
      if !after.nextIs (fun letter => isBlank letter || isBreak letter) then
        some { content := taken, stop := reached, cursor := after, broken := passed.broken }
      else
        let (gap, further) ← readSpacing column (fuel + 1) passed after
        if !flow && further.mark.column < column then
          some { content := taken, stop := reached, cursor := further, broken := gap.broken }
        else
          let others ← readPlain flow column fuel reached gap further
          some { others with content := taken ++ others.content }

/-! ## Quoted scalars -/

/-- The character that an escape letter stands for. -/
def escapedBy? (letter : Char) : Option Char :=
  match letter with
  | '0' => some '\x00'
  | 'a' => some '\x07'
  | 'b' => some '\x08'
  | 't' => some '\t'
  | '\t' => some '\t'
  | 'n' => some '\n'
  | 'v' => some '\x0b'
  | 'f' => some '\x0c'
  | 'r' => some '\r'
  | 'e' => some '\x1b'
  | ' ' => some ' '
  | '"' => some '"'
  | '/' => some '/'
  | '\\' => some '\\'
  | 'N' => some '\u0085'
  | '_' => some '\u00a0'
  | 'L' => some '\u2028'
  | 'P' => some '\u2029'
  | _ => none

/-- How many hexadecimal digits follow an escape letter. -/
def escapeDigits? (letter : Char) : Option Nat :=
  match letter with
  | 'x' => some 2
  | 'u' => some 4
  | 'U' => some 8
  | _ => none

def characterOf? (code : Nat) : Option Char :=
  if code < 0xD800 ∨ (0xDFFF < code ∧ code < 0x110000) then some (Char.ofNat code) else none

/-- The character of an escape that starts at a cursor, and the cursor after it. -/
def readEscape (cursor : Cursor) : Option (Char × Cursor) :=
  match cursor.at? 1 with
  | none => none
  | some letter =>
    match escapedBy? letter, escapeDigits? letter with
    | some meant, _ => some (meant, cursor.skip 2)
    | none, some count => do
      let after := cursor.skip 2
      let digits := after.rest.take count
      if digits.length < count then none
      else
        let code ← Digits.read? 16 digits
        let meant ← characterOf? code
        some (meant, after.skip count)
    | none, none => none

/-- The content of a quoted scalar up to the next blank, line end or closing
quote, with the cursor after it.  The flag tells that an escaped line end was
passed. -/
def readQuotedRun (single : Bool) (fuel : Nat) (cursor : Cursor) :
    Option (List Char × Bool × Cursor) :=
  match fuel with
  | 0 => none
  | fuel + 1 =>
    match cursor.rest with
    | [] => some ([], false, cursor)
    | letter :: rest =>
      if isBlank letter || isBreak letter then some ([], false, cursor)
      else if single && letter = '\'' then
        if rest.head? = some '\'' then do
          let (others, escaped, after) ← readQuotedRun single fuel (cursor.skip 2)
          some ('\'' :: others, escaped, after)
        else some ([], false, cursor)
      else if !single && letter = '"' then some ([], false, cursor)
      else if !single && letter = '\\' then
        if rest.head?.any isBreak then some ([], true, cursor.next.skipBreak)
        else do
          let (meant, further) ← readEscape cursor
          let (others, escaped, after) ← readQuotedRun single fuel further
          some (meant :: others, escaped, after)
      else do
        let (others, escaped, after) ← readQuotedRun single fuel cursor.next
        some (letter :: others, escaped, after)

/-- What is left of a quoted scalar from a cursor after its opening quote on.  It
must close, and no line of it may look like a boundary of documents. -/
def readQuoted (single : Bool) (fuel : Nat) (cursor : Cursor) : Option (List Char × Cursor) :=
  match fuel with
  | 0 => none
  | fuel + 1 =>
    if cursor.isDocumentBoundary || cursor.isEnd then none
    else do
      let (letters, escaped, after) ← readQuotedRun single (fuel + 1) cursor
      if after.startsWith (if single then '\'' else '"') then some (letters, after.next)
      else
        let start : Spacing := { broken := escaped }
        let (gap, further) ← readSpacing 0 (fuel + 1) start after
        let (others, reached) ← readQuoted single fuel further
        some (letters ++ (gap.content ++ others), reached)

/-! ## Block scalars -/

/-- What happens to the line ends at the end of a block scalar. -/
inductive Chomping where
  | strip
  | clip
  | keep
deriving DecidableEq

/-- The indicators after `|` or `>`: an indentation and a chomping, in either
order. -/
def readBlockHeader (cursor : Cursor) : Option (Option Nat × Chomping × Cursor) :=
  let chompingAt (place : Cursor) : Option (Chomping × Cursor) :=
    if place.startsWith '+' then some (.keep, place.next)
    else if place.startsWith '-' then some (.strip, place.next)
    else none
  let indentAt (place : Cursor) : Option (Option (Nat × Cursor)) :=
    match place.rest with
    | letter :: _ =>
      if Digits.isDecimal letter then
        if letter = '0' then none else some (some (letter.toNat - 48, place.next))
      else some none
    | [] => some none
  match chompingAt cursor with
  | some (chomping, after) => do
    match ← indentAt after with
    | some (indent, further) => some (some indent, chomping, further)
    | none => some (none, chomping, after)
  | none => do
    match ← indentAt cursor with
    | some (indent, after) =>
      match chompingAt after with
      | some (chomping, further) => some (some indent, chomping, further)
      | none => some (some indent, .clip, after)
    | none => some (none, .clip, cursor)

/-- Blank lines of a block scalar: their line ends, the greatest column that a
space reached, and the cursor at the first line that is not blank.  Without a
known indentation all leading spaces are passed. -/
def readBlankLines (indent : Option Nat) (fuel : Nat) (breaks : List Char) (widest : Nat)
    (cursor : Cursor) : Option (List Char × Nat × Cursor) :=
  match fuel with
  | 0 => none
  | fuel + 1 =>
    let spaces := (cursor.rest.takeWhile (· = ' ')).length
    let passed := match indent with
      | some column => min spaces (column - cursor.mark.column)
      | none => spaces
    let after := cursor.skip passed
    let wider := max widest after.mark.column
    let isShort := match indent with
      | some column => after.mark.column < column
      | none => true
    if isShort && after.startsWith '\t' then none
    else if after.nextIs isBreak then
      let (content, further) := after.readBreak
      readBlankLines indent fuel (breaks ++ content) wider further
    else some (breaks, wider, after)

/-- The lines of a block scalar from a cursor at the start of a line on, given the
last line end, the line ends of the blank lines after it, and whether the line
before began with a blank: the content from there on, the last line end, and the
line ends of the blank lines after it. -/
def readBlockLines (folded : Bool) (column : Nat) (fuel : Nat) (lastBreak blanks : List Char)
    (startsBlank : Bool) (cursor : Cursor) :
    Option (List Char × List Char × List Char × Cursor) :=
  match fuel with
  | 0 => none
  | fuel + 1 =>
    if cursor.mark.column = column && !cursor.isEnd then do
      let blank := cursor.nextIs isBlank
      let joint :=
        if folded && lastBreak = ['\n'] && !startsBlank && !blank then
          if blanks.isEmpty then [' '] else blanks
        else lastBreak ++ blanks
      let (letters, after) := cursor.takeWhile (!isBreak ·)
      let (ending, further) := after.readBreak
      let (blanksAfter, _, reached) ← readBlankLines (some column) (fuel + 1) [] 0 further
      let (others, last, trailing, stop) ←
        readBlockLines folded column fuel ending blanksAfter blank reached
      some (joint ++ (letters ++ others), last, trailing, stop)
    else some ([], lastBreak, blanks, cursor)

/-- A block scalar from a cursor after its indicator on: its content and the
cursor after it.  `parent` is the column of the enclosing block, none outside
all blocks, and fewer letters than `bound` are left. -/
def readBlock (folded : Bool) (parent : Option Nat) (bound : Nat) (cursor : Cursor) :
    Option (List Char × Cursor) := do
  let (wanted, chomping, afterHeader) ← readBlockHeader cursor
  let afterBlanks := afterHeader.skipWhile isBlank
  let afterComment :=
    if afterBlanks.startsWith '#' then afterBlanks.skipWhile (!isBreak ·) else afterBlanks
  if !afterComment.isLineEnd then none
  else
    let start := afterComment.skipBreak
    let fixed := wanted.map fun indent => indent + parent.getD 0
    let (leading, widest, first) ← readBlankLines fixed bound [] 0 start
    let least := match parent with
      | some column => column + 1
      | none => 0
    let column := fixed.getD (max (max widest least) 1)
    let (content, lastBreak, blanks, after) ←
      readBlockLines folded column bound [] leading false first
    let kept := match chomping with
      | .strip => []
      | .clip => lastBreak
      | .keep => lastBreak ++ blanks
    some (content ++ kept, after)

end Yaml

end LogPipeline
