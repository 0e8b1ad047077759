import LogPipeline.Classic.Text

namespace LogPipeline

namespace Classic

/-!
# Writing a document step by step

A writer gathers the classic text of one document in a buffer.  The rows of a
block wait in an aligner until all of them are there; then the header and the
aligned rows go to the buffer together.  A property that fails empties the
aligner again, so a failing block leaves the buffer as it was, and the rows of
one block never reach another.
-/

/-- A text that is being written and the rows of the block in hand. -/
structure Writer where
  buffer : List Char := []
  indent : Nat
  aligner : Aligner := {}

namespace Writer

/-- A writer after a step, and how the step ended. -/
abbrev Step := Writer × Except Failure Unit

def new (options : Options) : Writer where
  indent := options.indent

def append (writer : Writer) (letters : List Char) : Writer :=
  { writer with buffer := writer.buffer ++ letters }

def pushRow (writer : Writer) (row : List Char) : Writer :=
  { writer with aligner := writer.aligner.push row }

def writeEnvironment (writer : Writer) (environment : Properties) : Writer :=
  environment.foldl (fun current property => current.append (environmentLine property)) writer

def writeIncludes (writer : Writer) (files : List String) : Writer :=
  files.foldl (fun current file => current.append (includeLine file)) writer

/-- A writer with the rows of properties waiting, or without any waiting row
once a property has failed. -/
def pushProperties (accepts : Lua.Checker) (luaFilter : Bool) (writer : Writer) :
    Properties → Step
  | [] => (writer, .ok ())
  | property :: rest =>
    match propertyLines accepts writer.indent luaFilter property with
    | .ok rows => pushProperties accepts luaFilter (rows.foldl pushRow writer) rest
    | .error failure => ({ writer with aligner := {} }, .error failure)

/-- A writer with the waiting rows written under a header. -/
def flushUnder (writer : Writer) (header : String) : Writer :=
  let (rows, aligner) := writer.aligner.flush
  { writer with buffer := writer.buffer ++ (headerLine header ++ rows), aligner := aligner }

/-- A writer with the block of properties written.  A section without a header
and properties without entries give no block. -/
def writeBlock (accepts : Lua.Checker) (kind : Section) (properties : Properties)
    (luaFilter : Bool) (writer : Writer) : Step :=
  match kind.header? with
  | none => (writer, .ok ())
  | some header =>
    if properties.isEmpty then (writer, .ok ())
    else
      match pushProperties accepts luaFilter writer properties with
      | (filled, .ok ()) => (filled.flushUnder header, .ok ())
      | (emptied, .error failure) => (emptied, .error failure)

/-- A writer with the blocks of plugin instances written, up to the first that
fails. -/
def writeSection (accepts : Lua.Checker) (kind : Section) (writer : Writer) :
    List Plugin → Step
  | [] => (writer, .ok ())
  | plugin :: rest =>
    match writeBlock accepts kind plugin.properties (isLuaFilter kind plugin) writer with
    | (written, .ok ()) => writeSection accepts kind written rest
    | (stopped, .error failure) => (stopped, .error failure)

/-- A writer with sections written, up to the first that fails. -/
def writeSections (accepts : Lua.Checker) (writer : Writer) :
    List (Section × List Plugin) → Step
  | [] => (writer, .ok ())
  | (kind, plugins) :: rest =>
    match writeSection accepts kind writer plugins with
    | (written, .ok ()) => writeSections accepts written rest
    | (stopped, .error failure) => (stopped, .error failure)

/-- A writer with a whole document written, up to the first failure. -/
def writeDocument (accepts : Lua.Checker) (options : Options) (document : Document) : Step :=
  writeSections accepts
    (((new options).writeEnvironment document.environment).writeIncludes document.includes)
    (sections options.placement document)

end Writer

/-- The classic text of a document, or the failure that stopped its writing. -/
def write (accepts : Lua.Checker) (options : Options) (document : Document) :
    Except Failure String :=
  match Writer.writeDocument accepts options document with
  | (written, .ok ()) => .ok (String.ofList written.buffer)
  | (_, .error failure) => .error failure

end Classic

end LogPipeline
