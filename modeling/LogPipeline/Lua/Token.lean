namespace LogPipeline

namespace Lua

/-!
# Tokens of a script

A script is a row of tokens with blanks and comments between them.  A token
keeps its letters exactly as they stand in the script, quotes and escapes
included.  Where a script cannot be split into tokens, the fault names the
line that was reached and what is wrong there.
-/

/-- The kinds of token. -/
inductive TokenKind where
  | name
  | keyword
  | number
  | string
  | symbol
deriving DecidableEq

/-- A token: its kind and its letters as they stand in the script. -/
structure Token where
  kind : TokenKind
  letters : List Char
deriving DecidableEq

def keywords : List String :=
  ["and", "break", "do", "else", "elseif", "end", "false", "for", "function",
    "goto", "if", "in", "local", "nil", "not", "or", "repeat", "return",
    "then", "true", "until", "while"]

/-- The symbols, longer ones first, so that the first that fits is the longest. -/
def symbols : List String :=
  ["...", "..", "==", "~=", "<=", ">=", "<<", ">>", "//", "::", "+", "-", "*",
    "/", "%", "^", "#", "&", "~", "|", "<", ">", "=", "(", ")", "\x7b", "\x7d",
    "[", "]", ";", ":", ",", "."]

def isKeyword (letters : List Char) : Bool :=
  keywords.any fun word => word.toList = letters

namespace Token

def ofWord (word : String) : Token :=
  { kind := .keyword, letters := word.toList }

def ofSymbol (symbol : String) : Token :=
  { kind := .symbol, letters := symbol.toList }

def ofName (letters : List Char) : Token :=
  { kind := .name, letters := letters }

def isWord (token : Token) (word : String) : Bool :=
  token.kind = .keyword && token.letters = word.toList

def isAnyWord (token : Token) (words : List String) : Bool :=
  words.any token.isWord

def isSymbol (token : Token) (symbol : String) : Bool :=
  token.kind = .symbol && token.letters = symbol.toList

def isAnySymbol (token : Token) (symbols : List String) : Bool :=
  symbols.any token.isSymbol

end Token

/-- What can be wrong with the letters of a script. -/
inductive FaultCause where
  | unfinishedString
  | unfinishedLongString
  | unfinishedLongComment
  | invalidLongDelimiter
  | malformedNumber
  | unexpectedSymbol (letter : Char)
deriving DecidableEq

/-- A place where a script does not split into tokens. -/
structure Fault where
  line : Nat
  cause : FaultCause
deriving DecidableEq

namespace FaultCause

def message : FaultCause → String
  | .unfinishedString => "unfinished string"
  | .unfinishedLongString => "unfinished long string"
  | .unfinishedLongComment => "unfinished long comment"
  | .invalidLongDelimiter => "invalid long string delimiter"
  | .malformedNumber => "malformed number"
  | .unexpectedSymbol letter =>
    "unexpected symbol near '" ++ String.ofList [letter] ++ "'"

end FaultCause

def Fault.message (fault : Fault) : String :=
  s!"lua:{fault.line}: " ++ fault.cause.message

end Lua

end LogPipeline
