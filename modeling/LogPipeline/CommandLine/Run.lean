import LogPipeline.Conversion
import LogPipeline.Lua.Script
import LogPipeline.CommandLine.Path
import LogPipeline.CommandLine.Request

namespace LogPipeline

namespace CommandLine

/-!
# Runs

A run reads one input, renders it, and delivers the text to one place: the
file that the request names, else the standard output.  A run that fails
delivers nothing.  What a run can see and do is a record of operations, so that
the same run takes place in the world of files and in a model of it.
-/

/-- Why a file cannot be read or written. -/
inductive FileFault where
  | missing
  | notFolder
  | folder
  | denied
  | other (text : String)
deriving DecidableEq

namespace FileFault

/-- The wording of a fault with the number that the system gives it. -/
def message : FileFault → String
  | .missing => "No such file or directory (os error 2)"
  | .denied => "Permission denied (os error 13)"
  | .notFolder => "Not a directory (os error 20)"
  | .folder => "Is a directory (os error 21)"
  | .other text => text

end FileFault

/-- What a run can see and do. -/
structure System (m : Type → Type) where
  /-- The whole standard input. -/
  readInput : m (Except FileFault ByteArray)
  readFile : String → m (Except FileFault ByteArray)
  /-- Replaces or makes a file. -/
  writeFile : String → ByteArray → m (Except FileFault Unit)
  /-- The names of the current directory, from the root on. -/
  directory : m (List (List Char))

/-- What a run leaves besides files: the exit code and what it prints. -/
structure Outcome where
  code : Nat
  output : String := ""
  notice : String := ""
deriving DecidableEq

namespace Outcome

def failed (message : String) : Outcome where
  code := 1
  notice := "ERROR  " ++ message ++ "\n"

end Outcome

namespace Refusal

def usage : String :=
  "Usage: fluentbit-classic [OPTIONS] [INPUT]\n"

/-- What the program does and what its arguments mean. -/
def helpText : String :=
  "Convert Fluent Bit YAML configuration to the classic format\n\n" ++ usage ++
  "\nArguments:\n" ++
  "  [INPUT]  Input file path (.yaml). Omit or use '-' to read from stdin\n" ++
  "\nOptions:\n" ++
  "  -o, --output <file>\n" ++
  "          Output file path (prints to stdout if omitted)\n" ++
  "      --indent <number>\n" ++
  "          Indentation size for section properties (default: 4) [default: 4]\n" ++
  "      --multiline-placement <placement>\n" ++
  "          Where [MULTILINE_PARSER] sections go [default: with-parsers] " ++
  "[possible values: with-parsers, after-outputs]\n" ++
  "      --beautify-lua\n" ++
  "          Treat the input as a Lua chunk and print it spread over lines\n" ++
  "  -h, --help\n" ++
  "          Print help\n" ++
  "  -V, --version\n" ++
  "          Print version\n"

/-- The outcome of arguments that make no request. -/
def outcome : Refusal → Outcome
  | .help => { code := 0, output := helpText }
  | .version => { code := 0, output := "fluentbit-classic 0.1.0\n" }
  | .misuse => { code := 2, notice := "error: invalid arguments\n\n" ++ usage }

end Refusal

/-- The message of a failure, in general words where it has none of its own. -/
def failureMessage (failure : Failure) : String :=
  failure.message?.getD <|
    match failure with
    | .scriptChunk => "script does not compile"
    | _ => "document is not well formed"

def textOf (bytes : ByteArray) : Except String String :=
  match Utf8.read bytes with
  | .ok content => .ok content
  | .error _ => .error "stream did not contain valid UTF-8"

namespace Request

/-- The text that a request reads, or why it reads none. -/
def content {m : Type → Type} [Monad m] (request : Request) (system : System m) :
    m (Except String String) := do
  match request.source? with
  | none =>
    let bytes ← system.readInput
    return bytes.mapError FileFault.message >>= textOf
  | some path =>
    let bytes ← system.readFile path
    return (bytes.mapError FileFault.message >>= textOf).mapError fun reason =>
      s!"failed to read {path}: " ++ reason

/-- The text that a request makes of its input. -/
def rendered (request : Request) (accepts : Lua.Checker) (content : String) :
    Except Failure String :=
  if request.spread then Lua.spread accepts content
  else Conversion.convert accepts request.options content

/-- How the source of a request is named in a directory. -/
def sourceLabel (request : Request) (directory : List (List Char)) : String :=
  match request.source? with
  | none => "stdin"
  | some path => String.ofList (Path.shown directory path.toList)

/-- Delivers the text that a request made. -/
def deliver {m : Type → Type} [Monad m] (request : Request) (system : System m)
    (text : String) : m Outcome := do
  match request.target? with
  | none => return { code := 0, output := text }
  | some path =>
    match ← system.writeFile path text.toUTF8 with
    | .error fault => return .failed fault.message
    | .ok () =>
      let directory ← system.directory
      let target := String.ofList (Path.shown directory path.toList)
      return {
        code := 0
        notice := "✔ Converted " ++ request.sourceLabel directory ++ " → " ++ target ++ "\n" }

/-- Carries out a request. -/
def run {m : Type → Type} [Monad m] (request : Request) (system : System m)
    (accepts : Lua.Checker) : m Outcome := do
  match ← request.content system with
  | .error message => return .failed message
  | .ok content =>
    match request.rendered accepts content with
    | .error failure => return .failed (failureMessage failure)
    | .ok text => request.deliver system text

end Request

/-- Runs the program with arguments. -/
def run {m : Type → Type} [Monad m] (system : System m) (accepts : Lua.Checker)
    (arguments : List String) : m Outcome :=
  match Request.ofArguments arguments with
  | .error refusal => return refusal.outcome
  | .ok request => request.run system accepts

end CommandLine

end LogPipeline
