import LogPipeline.CommandLine.Run
import LogPipeline.Lua.Chunk

/-!
# The program

Carries out the arguments in the world of files and prints the outcome.
-/

namespace LogPipeline

namespace CommandLine

/-- The fault that an error of the system stands for.  The number of a fault
may come with its sign changed. -/
def FileFault.ofError (error : IO.Error) : FileFault :=
  match error with
  | .noFileOrDirectory .. => .missing
  | .permissionDenied .. => .denied
  | .inappropriateType _ code _ => if code = 20 ∨ code = -20 then .notFolder else .folder
  | unknown => .other (toString unknown)

/-- The result of an action, its errors as faults. -/
def guarded {α : Type} (action : IO α) : IO (Except FileFault α) := do
  match ← action.toBaseIO with
  | .ok result => return .ok result
  | .error error => return .error (.ofError error)

/-- All bytes that a stream still gives. -/
partial def readAll (stream : IO.FS.Stream) (read : ByteArray) : IO ByteArray := do
  let more ← stream.read 65536
  if more.isEmpty then return read else readAll stream (read ++ more)

/-- The operations of a run in the world of files. -/
def realSystem : System IO where
  readInput := guarded do readAll (← IO.getStdin) .empty
  readFile path := guarded (IO.FS.readBinFile path)
  writeFile path content := guarded (IO.FS.writeBinFile path content)
  directory := do return Path.names (← IO.currentDir).toString.toList

end CommandLine

end LogPipeline

open LogPipeline.CommandLine in
/-- Runs the program with its arguments and ends with the exit code. -/
def main (arguments : List String) : IO UInt32 := do
  let outcome ← run realSystem LogPipeline.Lua.isChunk arguments
  IO.print outcome.output
  IO.eprint outcome.notice
  return outcome.code.toUInt32
