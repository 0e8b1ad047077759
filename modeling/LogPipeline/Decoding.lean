import LogPipeline.Document
import LogPipeline.Failure
import LogPipeline.Number.Shortest
import LogPipeline.Text.Shown
import LogPipeline.Yaml.Generic
import LogPipeline.Yaml.Tokenizing

namespace LogPipeline

namespace Decoding

/-!
# Reading a document

The letters of a document become tokens, nodes and a tree.  The tree must make
sense as such, and it must hold something; then its mapping is read section by
section.  Every key must be the name of a section, a section may be left empty,
and the properties of a plugin are kept in their order.  What does not fit is
reported with the path to it and its place.
-/

open Yaml (Mark Tree Meaning Generic)

/-! ## Reports -/

/-- The way from the root of a document to a part of it. -/
inductive Path where
  | root
  | item (parent : Path) (index : Nat)
  | key (parent : Path) (name : String)
  | unnamed (parent : Path)

namespace Path

def isRoot : Path → Bool
  | .root => true
  | _ => false

/-- The text of a path. -/
def text : Path → String
  | .root => "."
  | .item parent index => parent.text ++ s!"[{index}]"
  | .key parent name => (if parent.isRoot then "" else parent.text ++ ".") ++ name
  | .unnamed parent => (if parent.isRoot then "" else parent.text ++ ".") ++ "?"

end Path

/-- What a part of the document was expected to be. -/
inductive Expected where
  | document
  | pipeline
  | sequence
  | properties
  | propertyValue
  | text
  | fieldName

def Expected.words : Expected → String
  | .document => "struct Document"
  | .pipeline => "struct Pipeline"
  | .sequence => "a sequence"
  | .properties => "a mapping of properties"
  | .propertyValue => "a property value"
  | .text => "a string"
  | .fieldName => "field identifier"

/-- What is wrong with a part of a document. -/
inductive Cause where
  /-- It is of another kind than expected; the words for what was found. -/
  | wrongKind (found : String) (expected : Expected)
  /-- It has a key that names no section. -/
  | unknownField (name : String) (known : List String)
  /-- It has two keys that name one section. -/
  | repeatedField (name : String)

/-- The wording of a cause. -/
def Cause.message : Cause → String
  | .wrongKind found expected => "invalid type: " ++ found ++ ", expected " ++ expected.words
  | .unknownField name known =>
    "unknown field \x60" ++ name ++ "\x60, expected one of " ++
      ", ".intercalate (known.map fun field => "\x60" ++ field ++ "\x60")
  | .repeatedField name => "duplicate field \x60" ++ name ++ "\x60"

/-- A part of a document that does not fit: what is wrong, the way to it, and
where it starts. -/
structure Misfit where
  cause : Cause
  path : Path
  mark : Mark

namespace Misfit

/-- The wording of a misfit: the way to it unless that is the root, what is
wrong, and the place unless that is the very start. -/
def message (misfit : Misfit) : String :=
  let way := misfit.path.text
  let line := misfit.mark.line + 1
  let column := misfit.mark.column + 1
  (if way = "." then "" else way ++ ": ") ++ misfit.cause.message ++
    (if misfit.mark.line = 0 ∧ misfit.mark.column = 0 then ""
    else s!" at line {line} column {column}")

/-- The place of a misfit, with lines and columns counted from one. -/
def location (misfit : Misfit) : Location where
  offset := misfit.mark.offset
  line := misfit.mark.line + 1
  column := misfit.mark.column + 1

def failure (misfit : Misfit) : Failure :=
  .misplaced misfit.message misfit.location

end Misfit

/-- Reading that reports the first part that does not fit. -/
abbrev Read (Result : Type) := Except Misfit Result

def misfit {Result : Type} (cause : Cause) (path : Path) (mark : Mark) : Read Result :=
  .error { cause := cause, path := path, mark := mark }

/-- The words for what a scalar means. -/
def meaningWords : Meaning → String
  | .nothing => "unit value"
  | .truth flag => "boolean \x60" ++ (if flag then "true" else "false") ++ "\x60"
  | .integer number => "integer \x60" ++ String.ofList (Digits.signed number) ++ "\x60"
  | .real number =>
    let letters :=
      if number.isFinite then Shortest.plain number
      else if number.isNaN then "NaN".toList
      else if number.isNegative then "-inf".toList
      else "inf".toList
    "floating point \x60" ++ String.ofList letters ++ "\x60"
  | .text content => "string " ++ Shown.quotation content

/-- The words for what a tree is. -/
def treeWords : Tree → String
  | .scalar _ tag style content =>
    meaningWords ((Meaning.ofTagged? tag style content).getD (.text content))
  | .sequence _ _ _ => "sequence"
  | .mapping _ _ _ => "map"
  | .shared target => treeWords target

/-- The report that a tree is of another kind than expected. -/
def wrongKind {Result : Type} (tree : Tree) (expected : Expected) (path : Path) : Read Result :=
  misfit (.wrongKind (treeWords tree) expected) path tree.mark

/-! ## Property values -/

/-- The way to the value of an entry: by the letters of its key where the key
is a scalar in its own place. -/
def entryPath (path : Path) : Tree → Path
  | .scalar _ _ _ content => .key path content
  | _ => .unnamed path

/-- The letters of a scalar, whatever they mean. -/
def text (expected : Expected) (path : Path) (tree : Tree) : Read String :=
  match tree.unshared with
  | .scalar _ _ _ content => .ok content
  | _ => wrongKind tree expected path

/-- The property value that a scalar's meaning is.  A whole number beyond the
range of signed ones of sixty-four bits is kept as its digits. -/
def meaningValue : Meaning → Value
  | .nothing => .text ""
  | .truth flag => .truth flag
  | .integer number =>
    if number < 0x8000000000000000 then .integer (Int64.ofInt number)
    else .text (String.ofList (Digits.signed number))
  | .real number => .real number
  | .text content => .text content

/-- The report that a tree has a tag of the document's own, where it has one. -/
def refuseLocalTag (tag : Option Yaml.Tag) (path : Path) (mark : Mark) : Read Unit :=
  if tag.any Yaml.Tag.isLocal then misfit (.wrongKind "enum" .propertyValue) path mark else .ok ()

mutual

/-- The property value of a tree. -/
def value (path : Path) : Tree → Read Value
  | .scalar mark tag style content => do
    refuseLocalTag tag path mark
    .ok (meaningValue ((Meaning.ofTagged? tag style content).getD (.text content)))
  | .sequence mark tag items => do
    refuseLocalTag tag path mark
    (values path 0 items).map .list
  | .mapping mark tag entries => do
    refuseLocalTag tag path mark
    (mapEntries path [] entries).map .map
  | .shared target => value path target

/-- The property values of items from an index on. -/
def values (path : Path) (index : Nat) : List Tree → Read (List Value)
  | [] => .ok []
  | item :: items => do
    let first ← value (.item path index) item
    let others ← values path (index + 1) items
    .ok (first :: others)

/-- The entries of a map after some others.  A key that is there already keeps
its place and takes the new value. -/
def mapEntries (path : Path) (before : List (String × Value)) :
    List (Tree × Tree) → Read (List (String × Value))
  | [] => .ok before
  | (key, content) :: entries => do
    let name ← text .text path key
    let held ← value (entryPath path key) content
    mapEntries path (Value.insert before name held) entries

end

/-! ## Sections -/

/-- Whether a section is written as nothing: left out, or a word that means
nothing. -/
def isLeftEmpty : Tree → Bool
  | .scalar _ tag style content =>
    style = .plain &&
      (content.isEmpty || ((tag.isNone || tag = some (Yaml.Tag.forKind "null")) &&
        Meaning.isNothing content))
  | .shared target => isLeftEmpty target
  | _ => false

/-- A section read as it is written, or its default where it is left empty. -/
def section? {Result : Type} (default : Result) (read : Path → Tree → Read Result) (path : Path)
    (tree : Tree) : Read Result :=
  if isLeftEmpty tree then .ok default else read path tree

/-- The properties of entries, in their order. -/
def propertiesOf (path : Path) : List (Tree × Tree) → Read Properties
  | [] => .ok []
  | (key, content) :: entries => do
    let name ← text .text path key
    let held ← value (entryPath path key) content
    let others ← propertiesOf path entries
    .ok ({ key := name, value := held } :: others)

/-- The entries of a mapping, none where an empty plain scalar stands for it. -/
def entries (expected : Expected) (path : Path) (tree : Tree) : Read (List (Tree × Tree)) :=
  match tree.unshared with
  | .mapping _ _ entries => .ok entries
  | .scalar _ _ .plain "" => .ok []
  | _ => wrongKind tree expected path

/-- The items of a sequence, none where an empty plain scalar stands for it. -/
def items (path : Path) (tree : Tree) : Read (List Tree) :=
  match tree.unshared with
  | .sequence _ _ items => .ok items
  | .scalar _ _ .plain "" => .ok []
  | _ => wrongKind tree .sequence path

def properties (path : Path) (tree : Tree) : Read Properties := do
  propertiesOf path (← entries .properties path tree)

/-- What is read from items, from an index on. -/
def eachItem {Result : Type} (read : Path → Tree → Read Result) (path : Path) (index : Nat) :
    List Tree → Read (List Result)
  | [] => .ok []
  | item :: rest => do
    let first ← read (.item path index) item
    let others ← eachItem read path (index + 1) rest
    .ok (first :: others)

def texts (path : Path) (tree : Tree) : Read (List String) := do
  eachItem (text .text) path 0 (← items path tree)

def plugin (path : Path) (tree : Tree) : Read Plugin :=
  (properties path tree).map Plugin.ofProperties

def plugins (path : Path) (tree : Tree) : Read (List Plugin) := do
  eachItem plugin path 0 (← items path tree)

/-- What reads a section into the whole that it belongs to. -/
abbrev Field (Whole : Type) := String × (Path → Tree → Whole → Read Whole)

/-- A section of a whole: its name, its default, how it is read and where it
goes. -/
def field {Whole Part : Type} (name : String) (default : Part) (read : Path → Tree → Read Part)
    (put : Whole → Part → Whole) : Field Whole :=
  (name, fun path tree whole => (section? default read path tree).map (put whole))

/-- The sections of entries, put one after the other into a whole.  The names
of those that are there already may not come again. -/
def eachField {Whole : Type} (fields : List (Field Whole)) (path : Path) (mark : Mark)
    (seen : List String) (whole : Whole) : List (Tree × Tree) → Read Whole
  | [] => .ok whole
  | (key, content) :: rest => do
    let name ← text .fieldName path key
    match fields.find? (·.1 = name) with
    | none => misfit (.unknownField name (fields.map (·.1))) path key.mark
    | some (_, read) =>
      if seen.contains name then misfit (.repeatedField name) path mark
      else
        let filled ← read (entryPath path key) content whole
        eachField fields path mark (name :: seen) filled rest

/-- A mapping of sections put into a whole. -/
def structured {Whole : Type} (expected : Expected) (fields : List (Field Whole)) (empty : Whole)
    (path : Path) (tree : Tree) : Read Whole := do
  eachField fields path tree.mark [] empty (← entries expected path tree)

/-- The sections of a pipeline. -/
def pipelineFields : List (Field Pipeline) :=
  [field "inputs" [] plugins fun whole part => { whole with inputs := part },
    field "parsers" [] plugins fun whole part => { whole with parsers := part },
    field "multiline_parsers" [] plugins fun whole part => { whole with multilineParsers := part },
    field "filters" [] plugins fun whole part => { whole with filters := part },
    field "outputs" [] plugins fun whole part => { whole with outputs := part }]

def pipeline (path : Path) (tree : Tree) : Read Pipeline :=
  structured .pipeline pipelineFields {} path tree

/-- The sections of a document. -/
def documentFields : List (Field Document) :=
  [field "env" [] properties fun whole part => { whole with environment := part },
    field "includes" [] texts fun whole part => { whole with includes := part },
    field "service" [] properties fun whole part => { whole with service := part },
    field "customs" [] plugins fun whole part => { whole with customs := part },
    field "pipeline" {} pipeline fun whole part => { whole with pipeline := part },
    field "parsers" [] plugins fun whole part => { whole with parsers := part },
    field "multiline_parsers" [] plugins fun whole part => { whole with multilineParsers := part }]

/-- The document of a tree. -/
def ofTree (tree : Tree) : Read Document :=
  structured .document documentFields {} .root tree

/-! ## Documents -/

/-- The tree of a document's letters and what it says, where it is well formed
and makes sense; no tree where there is no document. -/
def tree? (content : String) : Option (Option (Tree × Generic)) := do
  let tokens ← Yaml.tokens? content.toList
  match ← Yaml.Node.ofTokens? tokens with
  | none => some none
  | some node =>
    let tree ← Tree.ofNode? node
    let generic ← Generic.ofTree? tree
    some (some (tree, generic))

/-- The document that a text holds. -/
def ofText (content : String) : Except Failure Document :=
  match tree? content with
  | none => .error .malformed
  | some none => .error .empty
  | some (some (tree, generic)) =>
    if generic.isNothing then .error .empty
    else (ofTree tree).mapError Misfit.failure

end Decoding

end LogPipeline
