import LogPipeline.Failure
import LogPipeline.Lua.Layout

namespace LogPipeline

namespace Lua

/-!
# Compacting and spreading scripts

Both ways of writing a script ask a checker, before and after, whether a text
is a chunk that the interpreter accepts.  The checker is a parameter: the
rules of the writing do not depend on it.
-/

/-- A judgement on which texts are chunks. -/
abbrev Checker := String → Bool

def acceptAll : Checker :=
  fun _ => true

/-- A text that the checker accepts, or the failure that it is no chunk. -/
def checked (accepts : Checker) (source : String) : Except Failure String :=
  if accepts source then .ok source else .error .scriptChunk

/-- The tokens of a script, or why it has none. -/
def tokenize (source : String) : Except Failure (List Token) :=
  (tokens source.toList).mapError .scriptTokens

/-- A script written anew from its tokens, checked before and after. -/
def reformatted (accepts : Checker) (write : List Token → List Char) (source : String) :
    Except Failure String := do
  let accepted ← checked accepts source
  let read ← tokenize accepted
  checked accepts (String.ofList (write read))

/-- A script on one line. -/
def compact (accepts : Checker) (source : String) : Except Failure String :=
  reformatted accepts compactLetters source

/-- A script spread over lines. -/
def spread (accepts : Checker) (source : String) : Except Failure String :=
  reformatted accepts layoutLetters source

end Lua

end LogPipeline
