namespace LogPipeline

namespace CommandLine

/-!
# Paths

A path is a text with slashes between names.  It starts at the root if it
begins with a slash, else at the current directory.  A path below a directory
is shown from there on, otherwise as it is.
-/

namespace Path

/-- The names between the slashes of a path; empty ones stand for no step. -/
def names (path : List Char) : List (List Char) :=
  (path.splitOn '/').filter fun name => !name.isEmpty

def isAbsolute (path : List Char) : Bool :=
  path.head? = some '/'

def endsWithSlash (path : List Char) : Bool :=
  path.getLast? = some '/'

/-- Leaves out the slashes and the dots that stand for no step at the start. -/
def trimStart : List Char → List Char
  | '/' :: rest => trimStart rest
  | ['.'] => []
  | '.' :: '/' :: rest => trimStart rest
  | letters => letters

def trimEnd (letters : List Char) : List Char :=
  (trimStart letters.reverse).reverse

/-- What follows a name at the start of letters, where the name ends there. -/
def afterName? (name letters : List Char) : Option (List Char) :=
  let rest := letters.drop name.length
  if name.isPrefixOf letters ∧ rest.head?.all (· = '/') then some rest else none

/-- What is left of letters below the directory with some names. -/
def below? : List (List Char) → List Char → Option (List Char)
  | [], letters => some (trimStart (trimEnd letters))
  | name :: others, letters =>
    match afterName? name (trimStart letters) with
    | some rest => below? others rest
    | none => none

/-- A path as it is shown in a directory, given by its names. -/
def shown (directory : List (List Char)) (path : List Char) : List Char :=
  if isAbsolute path then (below? directory path).getD path else path

end Path

end CommandLine

end LogPipeline
