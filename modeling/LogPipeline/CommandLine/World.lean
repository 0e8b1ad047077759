import LogPipeline.CommandLine.Run

namespace LogPipeline

namespace CommandLine

/-!
# A world of files

A world is the files and folders that a run can see, its current directory and
its standard input.  A path is walked name by name, and every place that is
passed has to be a folder.  The last place may be absent, which is a fault only
for reading.
-/

/-- What stands at a place. -/
inductive Entry where
  | file (content : ByteArray)
  | folder

/-- What a run can see and change.  Places are lists of names from the root on. -/
structure World where
  directory : List (List Char)
  input : ByteArray := .empty
  entries : List (List (List Char) × Entry) := []

namespace World

/-- What stands at a place.  The current directory and all around it are folders. -/
def entry? (world : World) (place : List (List Char)) : Option Entry :=
  if place.isPrefixOf world.directory then some .folder else world.entries.lookup place

/-- The place that is reached from a folder along names. -/
def walk (world : World) (place : List (List Char)) :
    List (List Char) → Except FileFault (List (List Char))
  | [] => .ok place
  | name :: rest =>
    match world.entry? place with
    | none => .error .missing
    | some (.file _) => .error .notFolder
    | some .folder =>
      if name = ['.'] then world.walk place rest
      else if name = ['.', '.'] then world.walk place.dropLast rest
      else world.walk (place ++ [name]) rest

/-- The place that a path leads to. -/
def locate (world : World) (path : List Char) : Except FileFault (List (List Char)) :=
  if path.isEmpty then .error .missing
  else world.walk (if Path.isAbsolute path then [] else world.directory) (Path.names path)

/-- The content of the file that a path leads to.  After a slash at the end
only a folder can stand. -/
def read (world : World) (path : List Char) : Except FileFault ByteArray := do
  let place ← world.locate path
  match world.entry? place with
  | none => .error .missing
  | some .folder => .error .folder
  | some (.file content) =>
    if Path.endsWithSlash path then .error .notFolder else .ok content

def put (world : World) (place : List (List Char)) (entry : Entry) : World :=
  { world with
    entries := (place, entry) :: world.entries.filter fun (other, _) => other ≠ place }

/-- The world after a file was written where a path leads to. -/
def write (world : World) (path : List Char) (content : ByteArray) :
    Except FileFault World := do
  let place ← world.locate path
  match world.entry? place with
  | some .folder => .error .folder
  | _ =>
    if Path.endsWithSlash path then .error .folder
    else .ok (world.put place (.file content))

def foldersTo (directory : List (List Char)) (names : List (List Char)) :
    List (List (List Char)) :=
  (List.range names.length).map fun count => directory ++ names.take count

/-- A world with a file below its current directory, and the folders on the way. -/
def withFile (world : World) (path : List Char) (content : ByteArray) : World :=
  let names := Path.names path
  ((foldersTo world.directory names).foldl (fun made folder => made.put folder .folder) world).put
    (world.directory ++ names) (.file content)

/-- The operations of a run in a world. -/
def system : System (StateM World) where
  readInput := return .ok (← get).input
  readFile path := return (← get).read path.toList
  writeFile path content := do
    match (← get).write path.toList content with
    | .error fault => return .error fault
    | .ok changed =>
      set changed
      return .ok ()
  directory := return (← get).directory

/-- The outcome of a run in a world, and the world after it. -/
def run (world : World) (accepts : Lua.Checker) (arguments : List String) : Outcome × World :=
  CommandLine.run (m := StateM World) system accepts arguments |>.run world

end World

end CommandLine

end LogPipeline
