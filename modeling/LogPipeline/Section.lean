namespace LogPipeline

/-!
# Kinds of section

The classic text has lines for the environment and for included files, and
blocks under a header for every other kind of section.
-/

/-- A kind of section. -/
inductive Section where
  | environment
  | include
  | service
  | custom
  | input
  | parser
  | multilineParser
  | filter
  | output
deriving DecidableEq

namespace Section

/-- The word between the brackets of a block's header, for the kinds that are
written as blocks. -/
def header? : Section → Option String
  | .environment => none
  | .include => none
  | .service => some "SERVICE"
  | .custom => some "CUSTOM"
  | .input => some "INPUT"
  | .parser => some "PARSER"
  | .multilineParser => some "MULTILINE_PARSER"
  | .filter => some "FILTER"
  | .output => some "OUTPUT"

/-- The word that introduces a section: its header, or the directive of the
kinds that are written as lines. -/
def label : Section → String
  | .environment => "@SET"
  | .include => "@INCLUDE"
  | kind => kind.header?.getD ""

end Section

end LogPipeline
