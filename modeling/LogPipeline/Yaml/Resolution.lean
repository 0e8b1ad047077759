import LogPipeline.Number.Reading
import LogPipeline.Yaml.Tree

namespace LogPipeline

namespace Yaml

/-!
# The meaning of scalars

A plain scalar without a tag is nothing, a truth value, a whole number or a
double where its letters have the form of one, and a text otherwise.  Whole
numbers of up to 128 bits are recognised; longer ones are doubles.  A row of
digits that begins with a superfluous zero is a text.  Any other scalar is a
text, unless a tag asks for one of the other kinds.
-/

/-- What a scalar means. -/
inductive Meaning where
  | nothing
  | truth (flag : Bool)
  | integer (number : Int)
  | real (number : Binary64)
  | text (content : String)

namespace Meaning

def isNothing (content : String) : Bool :=
  ["null", "Null", "NULL", "~"].contains content

def truth? (content : String) : Option Bool :=
  if ["true", "True", "TRUE"].contains content then some true
  else if ["false", "False", "FALSE"].contains content then some false
  else none

def unsigned : List Char → List Char
  | '+' :: rest => rest
  | '-' :: rest => rest
  | letters => letters

/-- Whether letters are a row of digits with a superfluous zero in front, after
an optional sign. -/
def hasSuperfluousZero (letters : List Char) : Bool :=
  match unsigned letters with
  | '0' :: digit :: rest => (digit :: rest).all Digits.isDecimal
  | _ => false

/-- The number of digits in the base that letters announce, ten where they
announce none. -/
def magnitude? (letters : List Char) : Option Nat :=
  match letters with
  | '0' :: 'x' :: digits => Digits.read? 16 digits
  | '0' :: 'o' :: digits => Digits.read? 8 digits
  | '0' :: 'b' :: digits => Digits.read? 2 digits
  | digits => Digits.read? 10 digits

/-- How far the signed numbers of 128 bits reach, `2^127`. -/
def signedReach : Nat := Nat.pow 2 127

/-- The whole number that letters mean, within 128 bits. -/
def integer? (letters : List Char) : Option Int :=
  if hasSuperfluousZero letters then none
  else
    match letters with
    | '-' :: rest =>
      match magnitude? rest with
      | some size => if size ≤ signedReach then some (-(size : Int)) else none
      | none => none
    | '+' :: rest =>
      match magnitude? rest with
      | some size => if size < 2 * signedReach then some size else none
      | none => none
    | rest =>
      match magnitude? rest with
      | some size => if size < 2 * signedReach then some size else none
      | none => none

/-- The double that letters mean: an infinity, what is no number, or a decimal
that is not too large. -/
def real? (content : String) : Option Binary64 :=
  if [".inf", ".Inf", ".INF", "+.inf", "+.Inf", "+.INF"].contains content then
    some (Binary64.infinity false)
  else if ["-.inf", "-.Inf", "-.INF"].contains content then some (Binary64.infinity true)
  else if [".nan", ".NaN", ".NAN"].contains content then some Binary64.notANumber
  else
    match Binary64.read? content.toList with
    | some number => if number.isFinite then some number else none
    | none => none

/-- The meaning of a plain scalar. -/
def ofPlain (content : String) : Meaning :=
  if content.isEmpty || isNothing content then .nothing
  else
    match truth? content, integer? content.toList with
    | some flag, _ => .truth flag
    | none, some number => .integer number
    | none, none =>
      if hasSuperfluousZero content.toList then .text content
      else
        match real? content with
        | some number => .real number
        | none => .text content

def ofStyle (style : ScalarStyle) (content : String) : Meaning :=
  if style = .plain then ofPlain content else .text content

/-- The meaning of a scalar with a tag, or nothing where the tag asks for a
kind that the letters do not have. -/
def ofTagged? (tag : Option Tag) (style : ScalarStyle) (content : String) : Option Meaning :=
  match tag with
  | none => some (ofStyle style content)
  | some asked =>
    if asked = Tag.forKind "bool" then (truth? content).map .truth
    else if asked = Tag.forKind "int" then (integer? content.toList).map .integer
    else if asked = Tag.forKind "float" then (real? content).map .real
    else if asked = Tag.forKind "null" then if isNothing content then some .nothing else none
    else if asked.isMarked then some (ofStyle style content)
    else some (.text content)

end Meaning

end Yaml

end LogPipeline
