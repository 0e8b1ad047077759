import LogPipeline.Lua.Compact

namespace LogPipeline

namespace Lua

/-!
# Scripts spread over lines

A script is spread over lines by going through its tokens once.  A block is
opened by `then`, `do`, `else` and `repeat` and by the bracket that closes the
parameters of a function; `end`, `until`, `elseif` and `else` close one.  A
new line begins after an opening, before a closing word, and where a
statement seems to begin: after what can end an expression, outside brackets
opened in the block, before a name, a label or a word that begins a
statement.  Every line is indented by two spaces for each open block.
-/

/-- Where the spreading stands between two tokens. -/
structure Layout where
  /-- The finished lines. -/
  lines : List (List Char) := []
  /-- The line that is being written. -/
  current : List Char := []
  /-- For each open block, innermost first, how many brackets were open when it opened. -/
  blocks : List Nat := []
  /-- For each open list of parameters, innermost first, its depth in brackets. -/
  parameters : List Nat := []
  /-- How many brackets are open. -/
  depth : Nat := 0
  /-- A function was announced and its parameters have not opened. -/
  functionPending : Bool := false
  /-- The token before opened a block. -/
  blockOpened : Bool := false
  /-- A label was opened and not closed. -/
  inLabel : Bool := false

def closingWords : List String := ["end", "else", "elseif", "until"]

def statementWords : List String :=
  ["local", "if", "for", "while", "repeat", "return", "break", "goto", "function"]

/-- Whether a token can end an expression or a statement. -/
def endsExpression (token : Token) : Bool :=
  match token.kind with
  | .name => true
  | .number => true
  | .string => true
  | .keyword => token.isAnyWord ["end", "true", "false", "nil", "break"]
  | .symbol => token.isAnySymbol [")", "]", "\x7d", "...", "::"]

/-- Whether two tokens look better with a space between them. -/
def wantsSpace (first second : Token) : Bool :=
  if first.isAnySymbol ["(", "[", "\x7b", ".", ":", "#", "::"] then false
  else if second.isAnySymbol [")", "]", "\x7d", ",", ";", ".", ":"] then false
  else if second.isAnySymbol ["(", "["] then
    !endsExpression first && !first.isWord "function"
  else true

namespace Layout

def indentation (layout : Layout) : List Char :=
  List.replicate (2 * layout.blocks.length) ' '

/-- How many brackets are open that were opened in the innermost block. -/
def localDepth (layout : Layout) : Nat :=
  layout.depth - layout.blocks.head?.getD 0

/-- The layout after a token has closed the block that it ends, if any. -/
def closeBlock (layout : Layout) (token : Token) : Layout :=
  if token.isAnyWord closingWords then { layout with blocks := layout.blocks.tail }
  else layout

/-- Whether a token stands on a line of its own start, given the token before it. -/
def breaksBefore (layout : Layout) (before token : Token) : Bool :=
  if layout.blockOpened then true
  else if layout.inLabel && before.isSymbol "::" then false
  else if token.isAnyWord closingWords then true
  else if 0 < layout.localDepth || !endsExpression before then false
  else
    match token.kind with
    | .keyword => token.isAnyWord statementWords
    | .name => true
    | .symbol => token.isSymbol "::" && !layout.inLabel
    | _ => false

/-- The codes of the single characters that are white space, other than the
controls from tab to carriage return and the spaces of a fixed width. -/
def whiteCodes : List Nat :=
  [0x20, 0x85, 0xa0, 0x1680, 0x2028, 0x2029, 0x202f, 0x205f, 0x3000]

/-- White space of any alphabet, which is what is trimmed from a line. -/
def isWhite (letter : Char) : Bool :=
  let code := letter.toNat
  (9 ≤ code && code ≤ 13) || (0x2000 ≤ code && code ≤ 0x200a) || whiteCodes.contains code

def isVisible (line : List Char) : Bool :=
  line.any (!isWhite ·)

/-- The finished lines once the current one is ended. -/
def endedLines (layout : Layout) : List (List Char) :=
  if isVisible layout.current then layout.lines ++ [layout.current] else layout.lines

/-- The layout with a token written, given the token before it. -/
def write (layout : Layout) (before : Option Token) (token : Token) : Layout :=
  match before with
  | none => { layout with current := layout.indentation ++ token.letters }
  | some before =>
    if layout.breaksBefore before token then
      { layout with
        lines := layout.endedLines
        current := layout.indentation ++ token.letters }
    else
      let closesLabel := token.isSymbol "::" && layout.inLabel
      let spaced := (!closesLabel && wantsSpace before token) || needsSpace before token
      { layout with
        current := layout.current ++ ((if spaced then [' '] else []) ++ token.letters) }

def openBlock (layout : Layout) : Layout :=
  { layout with blocks := layout.depth :: layout.blocks, blockOpened := true }

/-- The layout with one more bracket open, which opens the parameters of an
announced function where it is a round one. -/
def openBracket (layout : Layout) (round : Bool) : Layout :=
  let depth := layout.depth + 1
  if round && layout.functionPending then
    { layout with
      depth := depth
      parameters := depth :: layout.parameters
      functionPending := false }
  else { layout with depth := depth }

/-- The layout with one bracket less open; a round one that closes parameters
opens the body of the function. -/
def closeBracket (layout : Layout) (round : Bool) : Layout :=
  let closed := { layout with depth := layout.depth - 1 }
  if round && layout.parameters.head? = some layout.depth then
    { closed with parameters := closed.parameters.tail }.openBlock
  else closed

/-- What a token that has been written opens and closes. -/
def note (layout : Layout) (token : Token) : Layout :=
  if token.isAnyWord ["then", "do", "else", "repeat"] then layout.openBlock
  else if token.isWord "function" then { layout with functionPending := true }
  else if token.isSymbol "(" then layout.openBracket true
  else if token.isSymbol ")" then layout.closeBracket true
  else if token.isAnySymbol ["[", "\x7b"] then layout.openBracket false
  else if token.isAnySymbol ["]", "\x7d"] then layout.closeBracket false
  else if token.isSymbol "::" then { layout with inLabel := !layout.inLabel }
  else layout

/-- The layout after one more token, given the token before it. -/
def push (layout : Layout) (before : Option Token) (token : Token) : Layout :=
  let written := (layout.closeBlock token).write before token
  { written with blockOpened := false }.note token

def pushAll (layout : Layout) (before : Option Token) : List Token → Layout
  | [] => layout
  | token :: rest => (layout.push before token).pushAll (some token) rest

/-- The text of a layout: its lines, each ended by a line break. -/
def letters (layout : Layout) : List Char :=
  layout.endedLines.flatMap (· ++ ['\n'])

end Layout

/-- The tokens of a script spread over lines. -/
def layoutLetters (read : List Token) : List Char :=
  (Layout.pushAll {} none read).letters

end Lua

end LogPipeline
