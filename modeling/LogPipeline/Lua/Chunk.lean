import LogPipeline.Lua.Lexicon
import LogPipeline.Lua.Reading
import LogPipeline.Lua.Judging

namespace LogPipeline

namespace Lua

/-!
# What the interpreter accepts

A text is a chunk if the interpreter finds tokens in it, if these spell a
block, and if the names, labels and jumps of the block are in order.  A chunk
is judged, never run.
-/

/-- The block that letters spell, if the interpreter reads one. -/
def Block.ofLetters? (letters : List Char) : Option Block :=
  (Lexicon.tokens? letters).bind Block.ofTokens?

/-- Whether the interpreter accepts a text as a chunk. -/
def isChunk (source : String) : Bool :=
  (Block.ofLetters? source.toList).any Block.isAcceptable

end Lua

end LogPipeline
