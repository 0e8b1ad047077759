import LogPipeline.Classic.Writer

namespace LogPipeline

/-!
# Sinks

A sink takes text at its end, as far as it has room.  A document is written to
it only once its whole text is there, so a document that fails leaves the sink
as it was.
-/

/-- A text that grows at its end, with a limit in bytes or without one. -/
structure Sink where
  content : String := ""
  limit : Option Nat := none

namespace Sink

def size (sink : Sink) : Nat :=
  sink.content.utf8ByteSize

/-- A sink with a text at its end, where it has room for all of it. -/
def append (sink : Sink) (text : String) : Except Failure Sink :=
  match sink.limit with
  | none => .ok { sink with content := sink.content ++ text }
  | some limit =>
    if sink.size + text.utf8ByteSize ≤ limit then
      .ok { sink with content := sink.content ++ text }
    else .error .sinkFull

/-- A sink with the classic text of a document at its end. -/
def write (sink : Sink) (accepts : Lua.Checker) (options : Classic.Options)
    (document : Document) : Except Failure Sink := do
  let text ← Classic.write accepts options document
  sink.append text

end Sink

end LogPipeline
