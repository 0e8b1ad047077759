import LogPipeline.Columns
import LogPipeline.Document
import LogPipeline.Section
import LogPipeline.Classic.Rendering
import LogPipeline.Lua.Script

namespace LogPipeline

namespace Classic

/-!
# Blocks

A block is a header between brackets and a row for each property, aligned in
columns.  A list of values gives a row for each value under the same key.  A
rule under a `rules` key is a line of its own without the key.  The code of a
Lua filter is put on one line.
-/

def rulesKey : String := "rules"

def codeKey : String := "code"

def luaFilterName : String := "lua"

def isRulesKey (key : String) : Bool :=
  sameKey key rulesKey

def isCodeKey (key : String) : Bool :=
  sameKey key codeKey

def isLuaFilter (kind : Section) (plugin : Plugin) : Bool :=
  kind = .filter && plugin.name = luaFilterName

/-- The line of a key and a text, indented. -/
def entryLine (indent : Nat) (key text : String) : List Char :=
  List.replicate indent ' ' ++ (key.toList ++ '\t' :: text.toList)

/-- A line of its own, indented. -/
def ownLine (indent : Nat) (text : String) : List Char :=
  List.replicate indent ' ' ++ text.toList

/-- A text without one line break at its end. -/
def withoutFinalBreak (text : String) : String :=
  match text.toList.reverse with
  | '\n' :: rest => String.ofList rest.reverse
  | _ => text

/-- The rule line that a value is, where rules are expected. -/
def ruleLine? (rulesExpected : Bool) (value : Value) : Option String :=
  match rulesExpected, value with
  | true, .map entries => renderRule? entries
  | _, _ => none

def itemLine (indent : Nat) (key : String) (rulesExpected : Bool) (value : Value) : List Char :=
  match ruleLine? rulesExpected value with
  | some line => ownLine indent line
  | none => entryLine indent key (withoutFinalBreak (render rulesExpected value))

/-- The values that a property gives rows for: the items of a list, or the
value itself. -/
def rowValues : Value → List Value
  | .list items => items
  | value => [value]

/-- The lines of a property whose value is no code. -/
def valueLines (indent : Nat) (luaFilter : Bool) (property : Property) : List (List Char) :=
  (rowValues property.value).map
    (itemLine indent property.key (!luaFilter && isRulesKey property.key))

/-- The code of a Lua filter on one line. -/
def codeText (accepts : Lua.Checker) (value : Value) : Except Failure String :=
  match value with
  | .text code => Lua.compact accepts code
  | other => .error (.codeShape other.shape)

/-- The lines of a property. -/
def propertyLines (accepts : Lua.Checker) (indent : Nat) (luaFilter : Bool)
    (property : Property) : Except Failure (List (List Char)) :=
  if luaFilter && isCodeKey property.key then
    (codeText accepts property.value).map fun code => [entryLine indent property.key code]
  else .ok (valueLines indent luaFilter property)

/-- The lines of a block's properties, or the failure of the first property
that has one. -/
def blockLines (accepts : Lua.Checker) (indent : Nat) (luaFilter : Bool) :
    Properties → Except Failure (List (List Char))
  | [] => .ok []
  | property :: rest => do
    let lines ← propertyLines accepts indent luaFilter property
    let others ← blockLines accepts indent luaFilter rest
    .ok (lines ++ others)

def headerLine (header : String) : List Char :=
  '[' :: (header.toList ++ [']', '\n'])

/-- The text of a block.  A section without a header has no blocks, and an
instance without properties gives none. -/
def blockText (accepts : Lua.Checker) (indent : Nat) (kind : Section) (plugin : Plugin) :
    Except Failure (List Char) :=
  match kind.header? with
  | none => .ok []
  | some header =>
    if plugin.properties.isEmpty then .ok []
    else
      (blockLines accepts indent (isLuaFilter kind plugin) plugin.properties).map
        fun lines => headerLine header ++ Columns.text lines

end Classic

end LogPipeline
