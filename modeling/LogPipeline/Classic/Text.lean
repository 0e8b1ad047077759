import LogPipeline.Classic.Block
import LogPipeline.Merge

namespace LogPipeline

namespace Classic

/-!
# The classic text of a document

The sections of a document are written in a fixed order: the environment, the
included files, the service, then the blocks of plugin instances.  Parsers
declared at two places are merged, those of the pipeline first.  Multiline
parsers come after the parsers or at the very end.  A failing property fails
the whole text.
-/

/-- Where the blocks of multiline parsers stand. -/
inductive Placement where
  | withParsers
  | afterOutputs
deriving DecidableEq

/-- How a document is written. -/
structure Options where
  /-- How many spaces stand before each property. -/
  indent : Nat := 4
  placement : Placement := .withParsers

def environmentLine (property : Property) : List Char :=
  "@SET ".toList ++
    (property.key.toList ++ '=' :: ((render false property.value).toList ++ ['\n']))

def includeLine (file : String) : List Char :=
  "@INCLUDE ".toList ++ (file.toList ++ ['\n'])

/-- The blocks of a list of instances, or the first failure among them. -/
def sectionText (accepts : Lua.Checker) (indent : Nat) (kind : Section) :
    List Plugin → Except Failure (List Char)
  | [] => .ok []
  | plugin :: rest => do
    let block ← blockText accepts indent kind plugin
    let others ← sectionText accepts indent kind rest
    .ok (block ++ others)

/-- The kinds of section with the instances that each has, in the order in
which they are written. -/
def sections (placement : Placement) (document : Document) : List (Section × List Plugin) :=
  let parsers := Merge.merge document.pipeline.parsers document.parsers
  let multiline : Section × List Plugin :=
    (.multilineParser,
      Merge.merge document.pipeline.multilineParsers document.multilineParsers)
  [(.service, [{ name := "", properties := document.service }]),
    (.custom, document.customs),
    (.input, document.pipeline.inputs),
    (.parser, parsers)] ++
  (if placement = .withParsers then [multiline] else []) ++
  [(.filter, document.pipeline.filters),
    (.output, document.pipeline.outputs)] ++
  (if placement = .afterOutputs then [multiline] else [])

/-- The blocks of all sections, or the first failure among them. -/
def sectionsText (accepts : Lua.Checker) (indent : Nat) :
    List (Section × List Plugin) → Except Failure (List Char)
  | [] => .ok []
  | (kind, plugins) :: rest => do
    let blocks ← sectionText accepts indent kind plugins
    let others ← sectionsText accepts indent rest
    .ok (blocks ++ others)

/-- The letters of a document's classic text. -/
def letters (accepts : Lua.Checker) (options : Options) (document : Document) :
    Except Failure (List Char) :=
  (sectionsText accepts options.indent (sections options.placement document)).map
    fun blocks =>
      document.environment.flatMap environmentLine ++
        (document.includes.flatMap includeLine ++ blocks)

def text (accepts : Lua.Checker) (options : Options) (document : Document) :
    Except Failure String :=
  (letters accepts options document).map String.ofList

end Classic

end LogPipeline
