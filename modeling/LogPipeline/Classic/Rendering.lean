import LogPipeline.Text.Quoted
import LogPipeline.Value.Json

namespace LogPipeline

namespace Classic

/-!
# The text of a value

A value stands after its key as a text on one line.  A text is written as it
is, unless it would break the line or be empty; numbers and truth values have
their usual forms, and lists and maps are written as JSON.  A map with a
state, a regular expression and a next state is a rule of a multiline parser,
and has a form of its own where rules are expected.
-/

/-- The keys that make a map a rule, in the order in which a rule line gives
their values. -/
def ruleFields : List String := ["state", "regex", "next_state"]

def ruleWord : String := "rule"

/-- The text of a text: between quotes where it would break the line or be
invisible. -/
def renderText (content : String) : String :=
  if Quoted.hasLineBreak content then Quoted.quote content
  else if content.isEmpty then "\"\""
  else content

def renderInteger (number : Int64) : String :=
  String.ofList (Digits.signed number.toInt)

def renderTruth (flag : Bool) : String :=
  if flag then "true" else "false"

/-- The text of a field of a rule, without the quoting of texts. -/
def plainText : Value → String
  | .text content => content
  | .integer number => renderInteger number
  | .real number => FixedPoint.text number
  | .truth flag => renderTruth flag
  | .list items => Json.text (.list items)
  | .map entries => Json.text (.map entries)

/-- A field of a rule between its quotes. -/
def ruleField (value : Value) : String :=
  "\t\"" ++ plainText value ++ "\""

/-- The rule line of a map that has the three fields of a rule. -/
def renderRule? (entries : List (String × Value)) : Option String :=
  match Value.entry? entries "state", Value.entry? entries "regex",
      Value.entry? entries "next_state" with
  | some state, some regex, some next =>
    some (ruleWord ++ ruleField state ++ ruleField regex ++ ruleField next)
  | _, _, _ => none

/-- Whether a value is a map with the three fields of a rule. -/
def isRule (value : Value) : Bool :=
  match value with
  | .map entries => ruleFields.all fun field => (Value.entry? entries field).isSome
  | _ => false

/-- The text of a value.  Where rules are expected, a map that is one has the
form of a rule line. -/
def render (rulesExpected : Bool) (value : Value) : String :=
  match value with
  | .text content => renderText content
  | .integer number => renderText (renderInteger number)
  | .real number => FixedPoint.text number
  | .truth flag => renderText (renderTruth flag)
  | .list items => Json.text (.list items)
  | .map entries =>
    match rulesExpected, renderRule? entries with
    | true, some line => line
    | _, _ => Json.text (.map entries)

end Classic

end LogPipeline
