import LogPipeline.Lua.Token

namespace LogPipeline

/-!
# Failures

A conversion fails for one of five kinds of reason.  Every failure has a
cause from which its message follows; those that concern a place in the
document also carry its position.
-/

/-- A place in a document, counted from one for lines and columns. -/
structure Location where
  offset : Nat
  line : Nat
  column : Nat
deriving DecidableEq

/-- The kinds of failure. -/
inductive FailureKind where
  | schema
  | emptyDocument
  | typeMismatch
  | minifier
  | io
deriving DecidableEq

namespace FailureKind

def label : FailureKind → String
  | .schema => "schema"
  | .emptyDocument => "empty document"
  | .typeMismatch => "type mismatch"
  | .minifier => "minifier"
  | .io => "io"

end FailureKind

/-- Why a conversion failed. -/
inductive Failure where
  /-- The document is not well formed, before anything is known of its sections. -/
  | malformed
  /-- The bytes of the document are no text; the fault in its own words. -/
  | notText (fault : String)
  /-- The document is well formed but has an unknown or misplaced part. -/
  | misplaced (message : String) (location : Location)
  /-- The document holds nothing. -/
  | empty
  /-- The code of a Lua filter has another shape than a text. -/
  | codeShape (found : String)
  /-- A script does not split into tokens. -/
  | scriptTokens (fault : Lua.Fault)
  /-- A script is no chunk that the interpreter accepts. -/
  | scriptChunk
  /-- A reader gave no text. -/
  | unreadable
  /-- A sink took less than the whole text. -/
  | sinkFull
deriving DecidableEq

namespace Failure

def kind : Failure → FailureKind
  | .malformed => .schema
  | .notText _ => .schema
  | .misplaced _ _ => .schema
  | .empty => .emptyDocument
  | .codeShape _ => .typeMismatch
  | .scriptTokens _ => .minifier
  | .scriptChunk => .minifier
  | .unreadable => .io
  | .sinkFull => .io

/-- The message of a failure, where its wording is fixed. -/
def message? : Failure → Option String
  | .malformed => none
  | .notText fault => some ("invalid utf-8: " ++ fault)
  | .misplaced message _ => some message
  | .empty => some "input document is empty"
  | .codeShape found =>
    some ("code field for custom lua filter is invalid: expected string, found " ++ found)
  | .scriptTokens fault => some fault.message
  | .scriptChunk => none
  | .unreadable => some "read failed: stream did not contain valid UTF-8"
  | .sinkFull => some "failed to write whole buffer"

def location? : Failure → Option Location
  | .misplaced _ location => some location
  | _ => none

end Failure

end LogPipeline
