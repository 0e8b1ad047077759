import LogPipeline.Value

namespace LogPipeline

/-!
# Properties and plugin instances

Properties are pairs of a key and a value in the order in which they were
written.  Keys may repeat, and all are kept; looking one up ignores the case
of ASCII letters and takes the first.  A plugin instance is a list of
properties together with its name, the text of its first `name` property.
-/

/-- A key and its value. -/
structure Property where
  key : String
  value : Value
deriving Inhabited

/-- Properties in the order in which they were written. -/
abbrev Properties := List Property

def lowerLetter (letter : Char) : Char :=
  if 'A' ≤ letter ∧ letter ≤ 'Z' then Char.ofNat (letter.toNat + 32) else letter

/-- Equality of keys that ignores the case of ASCII letters. -/
def sameKey (left right : String) : Bool :=
  left.toList.map lowerLetter = right.toList.map lowerLetter

namespace Property

def same (left right : Property) : Bool :=
  left.key == right.key && left.value.same right.value

end Property

namespace Properties

def get? (properties : Properties) (key : String) : Option Value :=
  (properties.find? fun property => sameKey property.key key).map (·.value)

def containsKey (properties : Properties) (key : String) : Bool :=
  (properties.get? key).isSome

def same : Properties → Properties → Bool
  | [], [] => true
  | left :: lefts, right :: rights => left.same right && same lefts rights
  | _, _ => false

end Properties

/-- An instance of a plugin: its properties and its name. -/
structure Plugin where
  name : String
  properties : Properties
deriving Inhabited

namespace Plugin

def nameKey : String := "name"

/-- The instance with given properties, named by its first `name` property
where that is a text, and unnamed otherwise. -/
def ofProperties (properties : Properties) : Plugin where
  name := ((properties.get? nameKey).bind Value.asText?).getD ""
  properties := properties

def same (left right : Plugin) : Bool :=
  left.name == right.name && left.properties.same right.properties

def holdsNaN (plugin : Plugin) : Bool :=
  plugin.properties.any fun property => property.value.holdsNaN

end Plugin

end LogPipeline
