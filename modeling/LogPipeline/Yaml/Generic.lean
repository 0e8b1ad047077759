import LogPipeline.Yaml.Resolution

namespace LogPipeline

namespace Yaml

/-!
# What a document says, without a schema

Before a document is read for its sections it must make sense as such: tags
that ask for a kind of scalar must be met, whole numbers must fit sixty-four
bits, and no mapping may have two equal keys.  Equality takes mappings without
regard to the order of their entries and tells whole numbers from doubles.
-/

/-- A value of a document. -/
inductive Generic where
  | nothing
  | truth (flag : Bool)
  | integer (number : Int)
  | real (number : Binary64)
  | text (content : String)
  | sequence (items : List Generic)
  | mapping (entries : List (Generic × Generic))
  | tagged (tag : Tag) (content : Generic)

namespace Generic

/-- Equality of doubles in which what is no number equals itself. -/
def sameReal (left right : Binary64) : Bool :=
  (left.isNaN && right.isNaN) || left.equal right

mutual

/-- Equality of values. -/
def same : Generic → Generic → Bool
  | .nothing, .nothing => true
  | .truth left, .truth right => left == right
  | .integer left, .integer right => left == right
  | .real left, .real right => sameReal left right
  | .text left, .text right => left == right
  | .sequence left, .sequence right => sameItems left right
  | .mapping left, .mapping right => left.length == right.length && entriesWithin left right
  | .tagged leftTag left, .tagged rightTag right =>
    leftTag.name == rightTag.name && same left right
  | _, _ => false

def sameItems : List Generic → List Generic → Bool
  | [], [] => true
  | left :: lefts, right :: rights => same left right && sameItems lefts rights
  | _, _ => false

/-- Whether every entry is among others. -/
def entriesWithin : List (Generic × Generic) → List (Generic × Generic) → Bool
  | [], _ => true
  | (key, value) :: entries, others =>
    others.any (fun other => same key other.1 && same value other.2) &&
      entriesWithin entries others

end

def hasKey (entries : List (Generic × Generic)) (key : Generic) : Bool :=
  entries.any fun entry => entry.1.same key

/-- The value that a scalar's meaning is, where it fits. -/
def ofMeaning? : Meaning → Option Generic
  | .nothing => some .nothing
  | .truth flag => some (.truth flag)
  | .integer number =>
    if -0x8000000000000000 ≤ number ∧ number < 0x10000000000000000 then some (.integer number)
    else none
  | .real number => some (.real number)
  | .text content => some (.text content)

/-- A value under its tag, where the tag is one of the document's own. -/
def underTag (tag : Option Tag) (content : Generic) : Generic :=
  match tag with
  | some given => if given.isLocal then .tagged given content else content
  | none => content

mutual

/-- The value of a tree, where it makes sense. -/
def ofTree? : Tree → Option Generic
  | .scalar _ tag style content => do
    let meaning ← Meaning.ofTagged? tag style content
    (ofMeaning? meaning).map (underTag tag)
  | .sequence _ tag items => (ofItems? items).map fun values => underTag tag (.sequence values)
  | .mapping _ tag entries =>
    (ofEntries? [] entries).map fun values => underTag tag (.mapping values)
  | .shared target => ofTree? target

def ofItems? : List Tree → Option (List Generic)
  | [] => some []
  | item :: items => do
    let value ← ofTree? item
    let values ← ofItems? items
    some (value :: values)

/-- The entries of a mapping after some others, with keys that differ. -/
def ofEntries? (before : List (Generic × Generic)) :
    List (Tree × Tree) → Option (List (Generic × Generic))
  | [] => some []
  | (key, value) :: entries => do
    let keyValue ← ofTree? key
    if hasKey before keyValue then none
    else
      let content ← ofTree? value
      let others ← ofEntries? ((keyValue, content) :: before) entries
      some ((keyValue, content) :: others)

end

/-- Whether a value, with its tags left aside, is nothing. -/
def isNothing : Generic → Bool
  | .nothing => true
  | .tagged _ content => content.isNothing
  | _ => false

end Generic

end Yaml

end LogPipeline
