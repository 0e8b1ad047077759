import LogPipeline.Yaml.Mark
import LogPipeline.Yaml.Tag

namespace LogPipeline

namespace Yaml

/-!
# Tokens of a document

A document is a row of tokens.  Apart from the indicators that are written
there are tokens for the structure that indentation gives: the start and the
end of a block, and the announcement of a key before the key itself.
-/

/-- How a scalar is written. -/
inductive ScalarStyle where
  | plain
  | singleQuoted
  | doubleQuoted
  | literal
  | folded
deriving DecidableEq

/-- The kinds of token. -/
inductive TokenKind where
  | versionDirective (major minor : Nat)
  | tagDirective (handle : List Char) (leading : List UInt8)
  | documentStart
  | documentEnd
  | blockSequenceStart
  | blockMappingStart
  | blockEnd
  | flowSequenceStart
  | flowSequenceEnd
  | flowMappingStart
  | flowMappingEnd
  | blockEntry
  | flowEntry
  | key
  | value
  | alias (name : List Char)
  | anchor (name : List Char)
  | tag (handle : List Char) (suffix : List UInt8)
  | scalar (style : ScalarStyle) (content : List Char)
  | streamEnd
deriving DecidableEq

/-- A token and where it starts and ends. -/
structure Token where
  kind : TokenKind
  start : Mark
  stop : Mark

end Yaml

end LogPipeline
