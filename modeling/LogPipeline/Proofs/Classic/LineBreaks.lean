import Mathlib.Algebra.Ring.Nat
import LogPipeline.Proofs.Columns
import LogPipeline.Proofs.Classic.Instances
import LogPipeline.Proofs.Classic.Rendering
import LogPipeline.Proofs.Lua.RoundTrip

namespace LogPipeline

namespace Classic

open Printing

/-!
# The lines of a document's text

A value never breaks its line: a text with a line break is quoted, other values
are printed without control characters, and code is compacted.  Keys, paths of
included files and the fields of rules are written bare, so that a line break
inside one of them is one of the document's text.
-/

def breaks (texts : List String) : Nat :=
  (texts.flatMap String.toList).count '\n'

theorem breaks_append (first second : List String) :
    breaks (first ++ second) = breaks first + breaks second := by
  rw [breaks, List.flatMap_append, List.count_append]
  rfl

theorem breaks_singleton (text : String) : breaks [text] = text.toList.count '\n' := by
  rw [breaks, List.flatMap_singleton]

theorem breaks_eq_zero_iff {texts : List String} :
    breaks texts = 0 ↔ ∀ text ∈ texts, '\n' ∉ text.toList := by
  simp only [breaks, List.count_eq_zero, List.mem_flatMap, not_exists, not_and]

theorem count_append_of_oneLine {first : List Char} (oneLine : '\n' ∉ first)
    (letters : List Char) : (first ++ letters).count '\n' = letters.count '\n' := by
  rw [List.count_append, List.count_eq_zero.mpr oneLine, Nat.zero_add]

theorem count_ended (letters : List Char) :
    (letters ++ ['\n']).count '\n' = 1 + letters.count '\n' := by
  rw [List.count_append, Nat.add_comm]
  rfl

theorem count_of_allPrint {letters : List Char} (prints : AllPrint letters) :
    letters.count '\n' = 0 :=
  List.count_eq_zero.mpr (lineBreak_notMem prints)

/-- Where every item has its own line breaks and those of its bare texts, so
have all of them together. -/
theorem count_flatMap {α : Type} {write : α → List Char} {own : α → Nat}
    {texts : α → List String} {items : List α}
    (each : ∀ item ∈ items, (write item).count '\n' = own item + breaks (texts item)) :
    (items.flatMap write).count '\n' = (items.map own).sum + breaks (items.flatMap texts) := by
  induction items with
  | nil => rfl
  | cons item rest inductionHypothesis =>
    rcases List.forall_mem_cons.mp each with ⟨here, later⟩
    rw [List.flatMap_cons, List.count_append, here, inductionHypothesis later, List.map_cons,
      List.sum_cons, List.flatMap_cons, breaks_append]
    omega

/-- A text for each item on a line of its own gives as many lines as items. -/
theorem count_lines {α : Type} {write : α → List Char} {text : α → String}
    (each : ∀ item, (write item).count '\n' = 1 + breaks [text item]) (items : List α) :
    (items.flatMap write).count '\n' = items.length + breaks (items.map text) := by
  have ones : (items.map fun _ => 1).sum = items.length := by simp
  rw [count_flatMap fun item _ => each item, ones, ← List.map_eq_flatMap]

/-! ## Rules -/

/-- The fields of a rule, for a value that is written as a rule line. -/
def ruleParts? (rulesExpected : Bool) (value : Value) : Option (List Value) :=
  match rulesExpected, value with
  | true, .map entries => ruleFields.mapM (Value.entry? entries)
  | _, _ => none

def ruleText (parts : List Value) : String :=
  parts.foldl (fun line part => line ++ ruleField part) ruleWord

theorem ruleLine?_eq (rulesExpected : Bool) (value : Value) :
    ruleLine? rulesExpected value = (ruleParts? rulesExpected value).map ruleText := by
  cases rulesExpected with
  | false => rfl
  | true =>
    cases value with
    | map entries =>
      change renderRule? entries = (ruleFields.mapM (Value.entry? entries)).map ruleText
      simp only [renderRule?, ruleFields, List.mapM_cons, List.mapM_nil]
      cases Value.entry? entries "state" with
      | none => rfl
      | some state =>
        cases Value.entry? entries "regex" with
        | none => rfl
        | some regex => cases Value.entry? entries "next_state" <;> rfl
    | _ => rfl

/-- A field of a rule has the line breaks of its text, if it is one. -/
theorem count_ruleField (part : Value) :
    (ruleField part).toList.count '\n' = breaks part.asText?.toList := by
  have quotes : (ruleField part).toList.count '\n' = (plainText part).toList.count '\n' := by
    rw [ruleField, String.toList_append, String.toList_append, List.count_append,
      List.count_append]
    change 0 + _ + 0 = _
    omega
  rw [quotes]
  cases part with
  | text content => exact (breaks_singleton content).symm
  | _ => exact count_of_allPrint (allPrint_plainText rfl)

theorem count_ruleText (parts : List Value) :
    (ruleText parts).toList.count '\n' = breaks (parts.filterMap Value.asText?) := by
  have onward : ∀ line : String,
      (parts.foldl (fun line part => line ++ ruleField part) line).toList.count '\n' =
        line.toList.count '\n' + breaks (parts.filterMap Value.asText?) := by
    induction parts with
    | nil =>
      intro line
      rfl
    | cons part rest inductionHypothesis =>
      intro line
      rw [List.foldl_cons, inductionHypothesis, String.toList_append, List.count_append,
        count_ruleField, Nat.add_assoc, ← breaks_append, List.filterMap_cons]
      cases part.asText? <;> rfl
  rw [ruleText, onward]
  exact Nat.zero_add _

/-! ## Rows -/

/-- The texts that stand bare in the row of a value: those of a rule's fields,
or the key. -/
def rowTexts (key : String) (rulesExpected : Bool) (value : Value) : List String :=
  match ruleParts? rulesExpected value with
  | some parts => parts.filterMap Value.asText?
  | none => [key]

/-- The texts that stand bare in the rows of a property. -/
def propertyTexts (luaFilter : Bool) (property : Property) : List String :=
  if luaFilter && isCodeKey property.key then [property.key]
  else (rowValues property.value).flatMap
    (rowTexts property.key (!luaFilter && isRulesKey property.key))

/-- How many rows a property has: one for each item of a list, or a single one. -/
def rowCount (property : Property) : Nat :=
  match property.value with
  | .list items => items.length
  | _ => 1

theorem count_indent (indent : Nat) (letters : List Char) :
    (List.replicate indent ' ' ++ letters).count '\n' = letters.count '\n' := by
  rw [List.count_append, List.count_replicate, if_neg (by decide), Nat.zero_add]

/-- A row under a key has the line breaks of the key, if its text has none. -/
theorem count_entryLine (indent : Nat) (key : String) {text : String}
    (oneLine : '\n' ∉ text.toList) : (entryLine indent key text).count '\n' = breaks [key] := by
  rw [entryLine, count_indent, List.count_append, List.count_cons_of_ne (by decide),
    List.count_eq_zero.mpr oneLine, breaks_singleton]
  rfl

theorem count_itemLine (indent : Nat) (key : String) (rulesExpected : Bool) (value : Value) :
    (itemLine indent key rulesExpected value).count '\n' =
      breaks (rowTexts key rulesExpected value) := by
  rw [itemLine, rowTexts]
  cases found : ruleLine? rulesExpected value with
  | some line =>
    rw [ruleLine?_eq, Option.map_eq_some_iff] at found
    rcases found with ⟨parts, isRule, rfl⟩
    rw [isRule]
    dsimp only
    rw [ownLine, count_indent, count_ruleText]
  | none =>
    have oneLine := lineBreak_notMem_render found
    rw [ruleLine?_eq, Option.map_eq_none_iff] at found
    rw [found]
    dsimp only
    rw [withoutFinalBreak_of_oneLine oneLine, count_entryLine indent key oneLine]

/-- Code is a text that can be compacted, and stands on one line then. -/
theorem oneLine_of_codeText {accepts : Lua.Checker} {value : Value} {small : String}
    (found : codeText accepts value = .ok small) :
    (∃ content, value = .text content ∧ Lua.compact accepts content = .ok small) ∧
      '\n' ∉ small.toList ∧ '\r' ∉ small.toList := by
  rcases codeText_eq_ok_iff.mp found with ⟨content, isText, compacts⟩
  exact ⟨⟨content, isText, compacts⟩, Lua.break_notMem (Lua.noBreak_of_compact compacts)⟩

/-- The rows of a property are as many as it has values, and their line breaks
are those of its bare texts. -/
theorem count_propertyLines {accepts : Lua.Checker} {indent : Nat} {luaFilter : Bool}
    {property : Property} {lines : List (List Char)}
    (found : propertyLines accepts indent luaFilter property = .ok lines) :
    lines.length = rowCount property ∧
      lines.flatten.count '\n' = breaks (propertyTexts luaFilter property) := by
  rw [propertyLines] at found
  rw [propertyTexts]
  by_cases isCode : (luaFilter && isCodeKey property.key) = true
  · rw [if_pos isCode] at found
    rcases map_eq_ok_iff.mp found with ⟨small, compacted, rfl⟩
    rcases oneLine_of_codeText compacted with ⟨⟨content, isText, -⟩, oneLine, -⟩
    rw [if_pos isCode, rowCount, isText, List.flatten_singleton]
    exact ⟨rfl, count_entryLine indent property.key oneLine⟩
  · rw [if_neg isCode] at found
    rw [if_neg isCode]
    cases found
    rw [valueLines]
    constructor
    · rw [List.length_map, rowCount]
      cases property.value <;> rfl
    · rw [← List.flatMap_def, breaks, List.flatMap_assoc, List.count_flatMap, List.count_flatMap]
      apply congrArg List.sum
      apply List.map_congr_left
      intro value _
      exact count_itemLine indent property.key _ value

theorem count_blockLines {accepts : Lua.Checker} {indent : Nat} {luaFilter : Bool}
    {properties : Properties} {lines : List (List Char)}
    (found : blockLines accepts indent luaFilter properties = .ok lines) :
    lines.length = (properties.map rowCount).sum ∧
      lines.flatten.count '\n' = breaks (properties.flatMap (propertyTexts luaFilter)) := by
  induction properties generalizing lines with
  | nil =>
    cases found
    exact ⟨rfl, rfl⟩
  | cons property rest inductionHypothesis =>
    rcases bind_append_eq_ok_iff.mp found with ⟨own, others, foundHere, foundLater, rfl⟩
    rcases count_propertyLines foundHere with ⟨rowsHere, breaksHere⟩
    rcases inductionHypothesis foundLater with ⟨rowsLater, breaksLater⟩
    rw [List.length_append, rowsHere, rowsLater, List.map_cons, List.sum_cons,
      List.flatten_append, List.count_append, breaksHere, breaksLater, List.flatMap_cons,
      breaks_append]
    exact ⟨rfl, rfl⟩

/-! ## Documents -/

/-- How many lines an instance has: a header and the rows of its properties, or
none without properties. -/
def blockLineCount (plugin : Plugin) : Nat :=
  if plugin.properties.isEmpty then 0 else 1 + (plugin.properties.map rowCount).sum

/-- How many lines a document has. -/
def lineCount (placement : Placement) (document : Document) : Nat :=
  document.environment.length + document.includes.length +
    ((instances placement document).map fun instanced => blockLineCount instanced.2).sum

/-- The texts that stand bare in the block of an instance. -/
def blockTexts (kind : Section) (plugin : Plugin) : List String :=
  plugin.properties.flatMap (propertyTexts (isLuaFilter kind plugin))

/-- The texts that stand bare in the text of a document. -/
def bareTexts (placement : Placement) (document : Document) : List String :=
  document.environment.map Property.key ++ (document.includes ++
    (instances placement document).flatMap fun instanced =>
      blockTexts instanced.1 instanced.2)

theorem count_environmentLine (property : Property) :
    (environmentLine property).count '\n' = 1 + breaks [property.key] := by
  have noRule : ruleLine? false property.value = none := rfl
  -- An equation of the definition would be found by computing the letters of the word.
  change ("@SET ".toList ++ (property.key.toList ++
    '=' :: ((render false property.value).toList ++ ['\n']))).count '\n' = _
  rw [count_append_of_oneLine (by decide), List.count_append,
    List.count_cons_of_ne (by decide), count_ended,
    List.count_eq_zero.mpr (lineBreak_notMem_render noRule), breaks_singleton, Nat.add_comm]

theorem count_includeLine (file : String) :
    (includeLine file).count '\n' = 1 + breaks [file] := by
  change ("@INCLUDE ".toList ++ (file.toList ++ ['\n'])).count '\n' = _
  rw [count_append_of_oneLine (by decide), count_ended, breaks_singleton]

theorem count_headerLine {kind : Section} {header : String}
    (headed : kind.header? = some header) : (headerLine header).count '\n' = 1 := by
  cases kind <;> cases headed <;> decide

/-- A block has the line breaks of its lines and of its bare texts. -/
theorem count_block {accepts : Lua.Checker} {indent : Nat} {kind : Section} {plugin : Plugin}
    {letters : List Char} {header : String} (headed : kind.header? = some header)
    (block : blockText accepts indent kind plugin = .ok letters) :
    letters.count '\n' = blockLineCount plugin + breaks (blockTexts kind plugin) := by
  by_cases noProperties : plugin.properties = []
  · rw [blockText_of_noProperties accepts indent kind noProperties] at block
    cases block
    rw [blockLineCount, blockTexts, noProperties]
    rfl
  · rcases exists_lines_of_blockText headed noProperties block with ⟨lines, found, rfl⟩
    rcases count_blockLines found with ⟨rows, breaksInside⟩
    rw [List.count_append, count_headerLine headed, Columns.count_text, rows, breaksInside,
      blockLineCount, if_neg (mt List.isEmpty_iff.mp noProperties), blockTexts]
    omega

/-- The line breaks of a text are the ends of its lines and those of the texts
that stand bare in it. -/
theorem count_of_write {accepts : Lua.Checker} {options : Options} {document : Document}
    {out : String} (written : write accepts options document = .ok out) :
    out.toList.count '\n' =
      lineCount options.placement document + breaks (bareTexts options.placement document) := by
  rcases blocks_of_write written with ⟨joined, each⟩
  have blocks : ((instances options.placement document).flatMap fun instanced =>
      blockAlone accepts options.indent instanced.1 instanced.2).count '\n' =
        ((instances options.placement document).map fun instanced =>
          blockLineCount instanced.2).sum +
          breaks ((instances options.placement document).flatMap fun instanced =>
            blockTexts instanced.1 instanced.2) := by
    apply count_flatMap
    intro instanced member
    rcases exists_header?_of_mem_instances member with ⟨header, headed⟩
    exact count_block headed (each instanced member)
  rw [joined, List.count_append, List.count_append, blocks,
    count_lines count_environmentLine, count_lines count_includeLine, lineCount, bareTexts,
    breaks_append, breaks_append, List.map_id']
  omega

/-- The lines that wait while a block is written, each pushed once, are free of
line breaks exactly if the bare texts of the block are. -/
theorem pushed_of_write {accepts : Lua.Checker} {options : Options} {document : Document}
    {out : String} (written : write accepts options document = .ok out) {kind : Section}
    {plugin : Plugin} (member : (kind, plugin) ∈ instances options.placement document) :
    ∃ lines : List (List Char),
      (∀ writer : Writer, writer.indent = options.indent →
        Writer.pushProperties accepts (isLuaFilter kind plugin) writer plugin.properties =
          (lines.foldl Writer.pushRow writer, .ok ())) ∧
      ((∀ line ∈ lines, '\n' ∉ line) ↔ ∀ text ∈ blockTexts kind plugin, '\n' ∉ text.toList) := by
  rcases exists_lines_of_write written member with ⟨lines, found⟩
  refine ⟨lines, ?_, ?_⟩
  · intro writer sameIndent
    rw [← sameIndent] at found
    rw [Writer.pushProperties_eq, found, Writer.foldl_pushRow]
  · rw [blockTexts, ← breaks_eq_zero_iff, ← (count_blockLines found).2, List.count_eq_zero]
    simp only [List.mem_flatten, not_exists, not_and]

/-- The text of a document has as many line breaks as the document has lines, and
those inside the texts that stand bare in it.  So it has one for each line exactly
if no bare text holds any, and the same is true of the lines that are aligned. -/
theorem lines_of_write {accepts : Lua.Checker} {options : Options} {document : Document}
    {out : String} (written : write accepts options document = .ok out) :
    out.toList.count '\n' =
        lineCount options.placement document + breaks (bareTexts options.placement document) ∧
      (out.toList.count '\n' = lineCount options.placement document ↔
        ∀ text ∈ bareTexts options.placement document, '\n' ∉ text.toList) ∧
      ∀ kind plugin, (kind, plugin) ∈ instances options.placement document →
        ∃ lines : List (List Char),
          (∀ writer : Writer, writer.indent = options.indent →
            Writer.pushProperties accepts (isLuaFilter kind plugin) writer plugin.properties =
              (lines.foldl Writer.pushRow writer, .ok ())) ∧
          ((∀ line ∈ lines, '\n' ∉ line) ↔
            ∀ text ∈ blockTexts kind plugin, '\n' ∉ text.toList) := by
  have counted := count_of_write written
  refine ⟨counted, ?_, ?_⟩
  · rw [← breaks_eq_zero_iff]
    omega
  · intro kind plugin member
    exact pushed_of_write written member

/-- A document with line breaks in texts, in a list and in a script. -/
def brokenValues : Document where
  service := [{ key := "banner", value := .text "a\nb" }]
  pipeline := {
    filters := [Plugin.ofProperties
      [{ key := "name", value := .text "lua" },
        { key := "code", value := .text "x = 1\ny = 2" },
        { key := "add", value := .list [.text "k v", .text "\n"] }]] }

/-- Its text, in which every value stands on one line. -/
def brokenValuesText : String :=
  "[SERVICE]\n    banner \"a\\nb\"\n" ++
    "[FILTER]\n    name lua\n    code x=1 y=2\n    add  k v\n    add  \"\\n\"\n"

theorem lines_of_write_brokenValues :
    write Lua.acceptAll {} brokenValues = .ok brokenValuesText ∧
      brokenValuesText.toList.count '\n' = lineCount .withParsers brokenValues ∧
      lineCount .withParsers brokenValues = 7 := by
  have written : write Lua.acceptAll {} brokenValues = .ok brokenValuesText := by
    rw [write_eq_text]
    exact Lua.toOption_eq_some_iff.mp (by decide +kernel)
  have bare : ∀ text ∈ bareTexts .withParsers brokenValues, '\n' ∉ text.toList := by
    decide +kernel
  exact ⟨written, (lines_of_write written).2.1.mpr bare, by decide +kernel⟩

def brokenKey : Document where
  service := [{ key := "a\nb", value := .text "v" }]

/-- A key with a line break takes two lines of the text, and its entry is aligned
as a line with a break in it. -/
theorem lines_of_write_brokenKey :
    write Lua.acceptAll {} brokenKey = .ok "[SERVICE]\n    a\nb v\n" ∧
      "[SERVICE]\n    a\nb v\n".toList.count '\n' = 3 ∧
      lineCount .withParsers brokenKey = 2 ∧
      blockLines Lua.acceptAll 4 false brokenKey.service = .ok ["    a\nb\tv".toList] := by
  refine ⟨?_, by decide +kernel, by decide +kernel, ?_⟩
  · rw [write_eq_text]
    exact Lua.toOption_eq_some_iff.mp (by decide +kernel)
  · exact Lua.toOption_eq_some_iff.mp (by decide +kernel)

/-! ## Code on one line -/

/-- A key that is another one up to the case of letters holds no character that
the other does not hold in some case. -/
theorem notMem_of_sameKey {left right : String} (same : sameKey left right = true)
    {letter : Char} (missing : lowerLetter letter ∉ right.toList.map lowerLetter) :
    letter ∉ left.toList := by
  intro member
  rw [← of_decide_eq_true same] at missing
  exact missing (List.mem_map_of_mem member)

/-- A row under a key without a character holds it only inside its text. -/
theorem notMem_entryLine {indent : Nat} {key text : String} {letter : Char}
    (visible : letter ≠ ' ' ∧ letter ≠ '\t') (inKey : letter ∉ key.toList)
    (inText : letter ∉ text.toList) : letter ∉ entryLine indent key text := by
  rw [entryLine, List.mem_append, List.mem_append, List.mem_cons, List.mem_replicate]
  rintro (⟨-, space⟩ | listed | tab | listed)
  · exact visible.1 space
  · exact inKey listed
  · exact visible.2 tab
  · exact inText listed

/-- The tokens of a script are written on one line, whatever breaks its strings
hold.  So the code of a filter is the text of a single row without any break. -/
theorem code_on_one_line :
    (∀ source read, Lua.tokenize source = .ok read →
      '\n' ∉ Lua.compactLetters read ∧ '\r' ∉ Lua.compactLetters read) ∧
      ∀ accepts indent property lines, isCodeKey property.key = true →
        propertyLines accepts indent true property = .ok lines →
          ∃ source small, property.value = .text source ∧
            Lua.compact accepts source = .ok small ∧
            lines = [entryLine indent property.key small] ∧
            '\n' ∉ entryLine indent property.key small ∧
            '\r' ∉ entryLine indent property.key small := by
  constructor
  · intro source read split
    exact Lua.break_notMem (Lua.noBreak_compactLetters (Lua.standsAlone_of_tokenize split))
  · intro accepts indent property lines isCode found
    rw [propertyLines, isCode, Bool.true_and, if_pos rfl] at found
    rcases map_eq_ok_iff.mp found with ⟨small, compacted, rfl⟩
    rcases oneLine_of_codeText compacted with ⟨⟨source, isText, compacts⟩, noFeed, noReturn⟩
    refine ⟨source, small, isText, compacts, rfl, ?_, ?_⟩
    · exact notMem_entryLine (by decide) (notMem_of_sameKey isCode (by decide)) noFeed
    · exact notMem_entryLine (by decide) (notMem_of_sameKey isCode (by decide)) noReturn

/-- A script whose strings hold every kind of break. -/
def brokenScript : String :=
  "x = 'a\\\r\nb\\z \n\r c' .. [==[\n\r\nd\r]]\n]==] -- e"

def brokenScriptRow : List Char :=
  "    Code\tx='a\\nbc'..\"\\nd\\n]]\\n\"".toList

theorem code_on_one_line_brokenScript :
    (∃ read, Lua.tokenize brokenScript = .ok read ∧ read.length = 5 ∧
        '\n' ∉ Lua.compactLetters read ∧ '\r' ∉ Lua.compactLetters read) ∧
      propertyLines Lua.acceptAll 4 true { key := "Code", value := .text brokenScript } =
        .ok [brokenScriptRow] ∧
      '\n' ∉ brokenScriptRow ∧ '\r' ∉ brokenScriptRow := by
  have found : propertyLines Lua.acceptAll 4 true { key := "Code", value := .text brokenScript } =
      .ok [brokenScriptRow] :=
    Lua.toOption_eq_some_iff.mp (by decide +kernel)
  have isCode : isCodeKey "Code" = true := by decide +kernel
  have known : (Lua.tokenize brokenScript).toOption.map List.length = some 5 := by decide +kernel
  rcases exists_ok_of_toOption_map known with ⟨read, split, five⟩
  rcases code_on_one_line.2 _ _ _ _ isCode found with ⟨source, small, -, -, same, noBreaks⟩
  rw [← (List.cons.inj same).1] at noBreaks
  exact ⟨⟨read, split, five, code_on_one_line.1 _ _ split⟩, found, noBreaks⟩

end Classic

end LogPipeline
