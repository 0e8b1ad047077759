import LogPipeline.Number.Binary64

namespace LogPipeline

/-!
# Property values

A property of the configuration holds a text, a whole number, a double, a
truth value, a list or a map.  A map keeps its entries in the order in which
they were written; putting a key that is there already replaces its value and
keeps its place.

Two values are compared by structure: lists item by item, maps entry by entry
in their order, doubles as numbers.  Hence a value that holds no number where
a double is expected differs even from itself.
-/

/-- The value of a property. -/
inductive Value where
  | text (content : String)
  | integer (number : Int64)
  | real (number : Binary64)
  | truth (flag : Bool)
  | list (items : List Value)
  | map (entries : List (String × Value))
deriving Inhabited

namespace Value

/-- The name of a value's shape, as messages give it. -/
def shape : Value → String
  | .text _ => "string"
  | .integer _ => "integer"
  | .real _ => "float"
  | .truth _ => "boolean"
  | .list _ => "list"
  | .map _ => "map"

def asText? : Value → Option String
  | .text content => some content
  | _ => none

def asList? : Value → Option (List Value)
  | .list items => some items
  | _ => none

def asMap? : Value → Option (List (String × Value))
  | .map entries => some entries
  | _ => none

def entry? (entries : List (String × Value)) (key : String) : Option Value :=
  (entries.find? fun entry => entry.1 = key).map (·.2)

def get? (value : Value) (key : String) : Option Value :=
  match value with
  | .map entries => entry? entries key
  | _ => none

/-- Entries with a key put to a value: in the place of the key where it is
there already, else at the end. -/
def insert (entries : List (String × Value)) (key : String) (value : Value) :
    List (String × Value) :=
  match entries with
  | [] => [(key, value)]
  | (other, current) :: rest =>
    if other = key then (key, value) :: rest
    else (other, current) :: insert rest key value

mutual

/-- Equality by structure, with doubles compared as numbers. -/
def same : Value → Value → Bool
  | .text left, .text right => left == right
  | .integer left, .integer right => left == right
  | .real left, .real right => left.equal right
  | .truth left, .truth right => left == right
  | .list left, .list right => sameItems left right
  | .map left, .map right => sameEntries left right
  | _, _ => false

def sameItems : List Value → List Value → Bool
  | [], [] => true
  | left :: lefts, right :: rights => same left right && sameItems lefts rights
  | _, _ => false

def sameEntries : List (String × Value) → List (String × Value) → Bool
  | [], [] => true
  | (leftKey, left) :: lefts, (rightKey, right) :: rights =>
    leftKey == rightKey && same left right && sameEntries lefts rights
  | _, _ => false

end

mutual

/-- Whether a double inside the value, at any depth, is no number. -/
def holdsNaN : Value → Bool
  | .real number => number.isNaN
  | .list items => itemsHoldNaN items
  | .map entries => entriesHoldNaN entries
  | _ => false

def itemsHoldNaN : List Value → Bool
  | [] => false
  | item :: items => holdsNaN item || itemsHoldNaN items

def entriesHoldNaN : List (String × Value) → Bool
  | [] => false
  | (_, value) :: entries => holdsNaN value || entriesHoldNaN entries

end

end Value

end LogPipeline
