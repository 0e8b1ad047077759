import LogPipeline.Proofs.Classic.Verbatim
import LogPipeline.Proofs.Lua.RoundTrip
import LogPipeline.Proofs.Number.Decimals

namespace LogPipeline

/-!
# Where a row ends

The last cell of a row is not padded, so a row ends in padding only if there is
nothing behind the last tab of its line.  Every value has a text, and a rule line
ends with a quote.  What is left are code without any token, which is compacted
to nothing, and texts that end with a tab of their own.
-/

namespace Columns

/-- A row ends with the spaces that stand for the last tab of its line. -/
def EndsInPadding (line row : List Char) : Prop :=
  ∃ start front more, line = start ++ ['\t'] ∧ Widened start front ∧
    row = front ++ List.replicate (more + 1) ' '

theorem endsInPadding_iff {line row : List Char} (widened : Widened line row) :
    EndsInPadding line row ↔ line.getLast? = some '\t' := by
  constructor
  · rintro ⟨start, -, -, rfl, -, -⟩
    exact List.getLast?_concat
  · intro last
    rcases List.getLast?_eq_some_iff.mp last with ⟨start, rfl⟩
    rcases exists_of_widened_append widened with ⟨front, tail, rfl, before, atEnd⟩
    rcases exists_of_widened_tab atEnd with ⟨more, nothing, rfl, done⟩
    cases done
    exact ⟨start, front, more, rfl, before, by rw [List.append_nil]⟩

end Columns

namespace Classic

/-! ## The texts of a property -/

/-- No value is rendered as nothing. -/
theorem render_ne_empty {rulesExpected : Bool} {value : Value}
    (noRule : ruleLine? rulesExpected value = none) : render rulesExpected value ≠ "" := by
  cases value with
  | text content => exact renderText_ne_empty content
  | integer number => exact renderText_ne_empty _
  | real number => exact FixedPoint.text_ne_empty number
  | truth flag => exact renderText_ne_empty _
  | list items =>
    rw [render, Json.text, ne_eq, String.ofList_eq_empty_iff, Json.letters]
    exact List.cons_ne_nil _ _
  | map entries =>
    rw [render_map noRule, Json.text, ne_eq, String.ofList_eq_empty_iff, Json.letters]
    exact List.cons_ne_nil _ _

theorem exists_ruleField_eq (value : Value) :
    ∃ front, (ruleField value).toList = front ++ ['"'] :=
  ⟨("\t\"" ++ plainText value).toList, String.toList_append⟩

/-- A rule line ends with the quote of its last field. -/
theorem getLast?_of_itemEntry {key line : String} {rulesExpected : Bool} {value : Value}
    (isRule : itemEntry key rulesExpected value = .rule line) :
    line.toList.getLast? = some '"' := by
  rw [itemEntry] at isRule
  split at isRule
  · rename_i found
    cases isRule
    rw [ruleLine?.eq_def] at found
    split at found
    · rw [renderRule?] at found
      split at found
      · rename_i next _ _ _
        cases found
        rcases exists_ruleField_eq next with ⟨front, same⟩
        rw [String.toList_append, same, ← List.append_assoc, List.getLast?_concat]
      · cases found
    · cases found
  · cases isRule

/-- Code that is compacted to nothing: it has blanks and comments only. -/
def IsBareCode (luaFilter : Bool) (property : Property) : Prop :=
  luaFilter = true ∧ isCodeKey property.key = true ∧
    ∃ source, property.value = .text source ∧ Lua.tokenize source = .ok []

/-- A property that is no code, with a text on one line that ends with a tab. -/
def HasFinalTab (luaFilter : Bool) (property : Property) : Prop :=
  (luaFilter && isCodeKey property.key) = false ∧
    ∃ content, .text content ∈ rowValues property.value ∧ '\n' ∉ content.toList ∧
      content.toList.getLast? = some '\t'

def Entry.text? : Entry → Option String
  | .rule _ => none
  | .pair _ text => some text

theorem text?_itemEntry_eq_some_iff {key text : String} {rulesExpected : Bool} {value : Value} :
    (itemEntry key rulesExpected value).text? = some text ↔
      ruleLine? rulesExpected value = none ∧ render rulesExpected value = text := by
  rw [itemEntry]
  cases ruleLine? rulesExpected value <;> simp [Entry.text?]

/-- The texts of a property are its code on one line, or those of its values that
give no rule line. -/
theorem exists_text_iff {accepts : Lua.Checker} {luaFilter : Bool} {property : Property}
    {entries : List Entry} (found : propertyEntries accepts luaFilter property = .ok entries)
    (holds : String → Prop) :
    (∃ entry ∈ entries, ∃ text, entry.text? = some text ∧ holds text) ↔
      if luaFilter && isCodeKey property.key then
        ∃ small, codeText accepts property.value = .ok small ∧ holds small
      else
        ∃ value ∈ rowValues property.value,
          ruleLine? (!luaFilter && isRulesKey property.key) value = none ∧
            holds (render (!luaFilter && isRulesKey property.key) value) := by
  rw [propertyEntries] at found
  split at found
  · rename_i isCode
    rcases map_eq_ok_iff.mp found with ⟨small, compacted, rfl⟩
    rw [if_pos isCode, compacted]
    simp [Entry.text?]
  · rename_i noCode
    cases found
    rw [if_neg noCode]
    simp only [List.mem_map]
    constructor
    · rintro ⟨_, ⟨value, member, rfl⟩, text, isText, held⟩
      rcases text?_itemEntry_eq_some_iff.mp isText with ⟨noRule, rfl⟩
      exact ⟨value, member, noRule, held⟩
    · rintro ⟨value, member, noRule, held⟩
      exact ⟨_, ⟨value, member, rfl⟩, _, text?_itemEntry_eq_some_iff.mpr ⟨noRule, rfl⟩, held⟩

/-- An entry of a property has no text exactly if it is code without tokens. -/
theorem emptyText_iff {accepts : Lua.Checker} {luaFilter : Bool} {property : Property}
    {entries : List Entry} (found : propertyEntries accepts luaFilter property = .ok entries) :
    (∃ entry ∈ entries, entry.text? = some "") ↔ IsBareCode luaFilter property := by
  have texts := exists_text_iff found (· = "")
  simp only [exists_eq_right] at texts
  rw [texts, IsBareCode, ← and_assoc, ← Bool.and_eq_true]
  rw [propertyEntries] at found
  split at found
  · rename_i isCode
    rcases map_eq_ok_iff.mp found with ⟨small, compacted, -⟩
    rcases codeText_eq_ok_iff.mp compacted with ⟨source, isText, compacts⟩
    rcases Lua.reformatted_eq_ok_iff.mp compacts with ⟨-, read, split, rfl, -⟩
    rw [if_pos isCode, and_iff_right isCode, compacted, isText]
    simp only [Except.ok.injEq, String.ofList_eq_empty_iff,
      Lua.compactLetters_eq_nil_iff (Lua.standsAlone_of_tokens split), Value.text.injEq,
      exists_eq_left', Lua.tokenize_eq_ok_iff, split]
  · rename_i noCode
    rw [if_neg noCode, iff_false_right (fun isCode => noCode isCode.1)]
    rintro ⟨value, -, noRule, empty⟩
    exact render_ne_empty noRule empty

/-- An entry of a property has a text that ends with a tab exactly if one of its
values is such a text. -/
theorem finalTab_iff {accepts : Lua.Checker} {luaFilter : Bool} {property : Property}
    {entries : List Entry} (found : propertyEntries accepts luaFilter property = .ok entries) :
    (∃ entry ∈ entries, ∃ text, entry.text? = some text ∧ text.toList.getLast? = some '\t') ↔
      HasFinalTab luaFilter property := by
  have tabbed : ∀ letters : List Char, letters.getLast? = some '\t' → '\t' ∈ letters :=
    fun _ last => List.mem_of_getLast? last
  rw [exists_text_iff found, HasFinalTab]
  split
  · rename_i isCode
    rw [iff_false_right (by simp [isCode])]
    rintro ⟨small, compacted, last⟩
    rcases codeText_eq_ok_iff.mp compacted with ⟨source, -, compacts⟩
    rcases Lua.reformatted_eq_ok_iff.mp compacts with ⟨-, read, split, rfl, -⟩
    rw [String.toList_ofList] at last
    have visible := Lua.visible_last_of_compactLetters (Lua.standsAlone_of_tokens split)
    exact absurd (visible '\t' last) (by decide)
  · rename_i noCode
    rw [Bool.not_eq_true] at noCode
    rw [and_iff_right noCode]
    constructor
    · rintro ⟨value, member, noRule, last⟩
      rcases (tabbed_render_iff tabbed noRule).mp last with ⟨content, rfl, held⟩
      exact ⟨content, member, held⟩
    · rintro ⟨content, member, held⟩
      have noRule : ruleLine? (!luaFilter && isRulesKey property.key) (.text content) = none := by
        cases (!luaFilter && isRulesKey property.key) <;> rfl
      exact ⟨.text content, member, noRule,
        (tabbed_render_iff tabbed noRule).mpr ⟨content, rfl, held⟩⟩

/-! ## The rows of a block -/

/-- The line of a key and a text ends with a tab if the text is nothing or ends
with one. -/
theorem getLast?_entryLine_iff (indent : Nat) (key text : String) :
    (entryLine indent key text).getLast? = some '\t' ↔
      text = "" ∨ text.toList.getLast? = some '\t' := by
  rw [entryLine, ← List.append_assoc, List.getLast?_append_of_ne_nil _ (List.cons_ne_nil _ _),
    List.getLast?_cons]
  cases last : text.toList.getLast? with
  | none =>
    rw [List.getLast?_eq_none_iff, String.toList_eq_nil_iff] at last
    simp [last]
  | some letter =>
    have notEmpty : text ≠ "" := by
      rintro rfl
      cases last
    simp [notEmpty]

theorem getLast?_of_rule_mem {accepts : Lua.Checker} {luaFilter : Bool} {property : Property}
    {entries : List Entry} (found : propertyEntries accepts luaFilter property = .ok entries)
    {line : String} (member : .rule line ∈ entries) (indent : Nat) :
    (ownLine indent line).getLast? = some '"' := by
  rw [propertyEntries] at found
  split at found
  · rcases map_eq_ok_iff.mp found with ⟨small, -, rfl⟩
    cases List.mem_singleton.mp member
  · cases found
    rcases List.mem_map.mp member with ⟨value, -, same⟩
    rw [ownLine, List.getLast?_append, getLast?_of_itemEntry same, Option.some_or]

/-- A line of a property ends with a tab exactly if it is code without tokens, or
has a text that ends with one. -/
theorem lastTab_iff {accepts : Lua.Checker} {luaFilter : Bool} {property : Property}
    {entries : List Entry} (found : propertyEntries accepts luaFilter property = .ok entries)
    (indent : Nat) :
    (∃ entry ∈ entries, (entry.line indent).getLast? = some '\t') ↔
      IsBareCode luaFilter property ∨ HasFinalTab luaFilter property := by
  rw [← emptyText_iff found, ← finalTab_iff found]
  constructor
  · rintro ⟨entry, member, last⟩
    cases entry with
    | rule line =>
      rw [Entry.line, getLast?_of_rule_mem found member indent] at last
      cases last
    | pair key text =>
      rcases (getLast?_entryLine_iff indent key text).mp last with rfl | tab
      · exact .inl ⟨_, member, rfl⟩
      · exact .inr ⟨_, member, text, rfl, tab⟩
  · rintro (⟨entry, member, empty⟩ | ⟨entry, member, text, isText, tab⟩)
    · cases entry with
      | rule line => cases empty
      | pair key text =>
        cases empty
        exact ⟨_, member, (getLast?_entryLine_iff indent key "").mpr (.inl rfl)⟩
    · cases entry with
      | rule line => cases isText
      | pair key other =>
        cases isText
        exact ⟨_, member, (getLast?_entryLine_iff indent key text).mpr (.inr tab)⟩

theorem entries_of_pluginBlocks {accepts : Lua.Checker} {kind : Section} {plugin : Plugin}
    {blocks : List Block} (planned : pluginBlocks accepts kind plugin = .ok blocks)
    {block : Block} (member : block ∈ blocks) :
    gather (propertyEntries accepts (isLuaFilter kind plugin)) plugin.properties =
      .ok block.entries := by
  rw [pluginBlocks] at planned
  split at planned
  · cases planned
    cases member
  · split at planned
    · cases planned
      cases member
    · rcases map_eq_ok_iff.mp planned with ⟨entries, gathered, rfl⟩
      rw [List.mem_singleton.mp member]
      exact gathered

/-- A block that is written is appended as it is planned. -/
theorem blocks_of_writeBlock {accepts : Lua.Checker} {kind : Section} {plugin : Plugin}
    {writer after : Writer} (waits : writer.aligner = {})
    (written : writer.writeBlock accepts kind plugin.properties (isLuaFilter kind plugin) =
      (after, .ok ())) :
    ∃ blocks, pluginBlocks accepts kind plugin = .ok blocks ∧
      after = writer.append (blocks.flatMap (Block.letters writer.indent)) := by
  rw [Writer.writeBlock_eq accepts kind plugin waits, ← map_pluginBlocks] at written
  cases planned : pluginBlocks accepts kind plugin with
  | error failure =>
    rw [planned] at written
    cases written
  | ok blocks =>
    rw [planned] at written
    cases written
    exact ⟨blocks, rfl, rfl⟩

theorem exists_mem_zip_iff {α β : Type} {sees : α → β → Prop} {holds : α → Prop}
    {items : List α} {images : List β}
    (each : List.Forall₂ (fun item image => sees item image ↔ holds item) items images) :
    (∃ item image, (item, image) ∈ items.zip images ∧ sees item image) ↔
      ∃ item ∈ items, holds item := by
  induction each with
  | nil => simp
  | cons here _ inductionHypothesis =>
    simp only [List.zip_cons_cons, List.mem_cons, Prod.mk.injEq, or_and_right, exists_or,
      exists_eq_left, inductionHypothesis, and_assoc, exists_and_left, here]

/-- A row of a written block that is no rule line is the indent, its key, padding
and its text, and an empty text is written as two quotes.  So nothing stands
behind the padding only in the row of code without tokens.  A row of the block
ends in padding exactly if there is such code, or a text on one line that ends
with a tab. -/
theorem rows_of_writeBlock {accepts : Lua.Checker} {kind : Section} {plugin : Plugin}
    {writer after : Writer} (waits : writer.aligner = {})
    (written : writer.writeBlock accepts kind plugin.properties (isLuaFilter kind plugin) =
      (after, .ok ())) :
    (∀ rulesExpected, render rulesExpected (.text "") = "\"\"") ∧
    ∃ blocks, pluginBlocks accepts kind plugin = .ok blocks ∧
      after = writer.append (blocks.flatMap (Block.letters writer.indent)) ∧
      ∀ block ∈ blocks,
        List.Forall₂ (fun entry row => ∀ key text, entry = .pair key text →
          ∃ keyRow more textRow,
            row = List.replicate writer.indent ' ' ++
              (keyRow ++ (List.replicate (more + 1) ' ' ++ textRow)) ∧
            Columns.Widened key.toList keyRow ∧ Columns.Widened text.toList textRow ∧
            (textRow = [] ↔ text = "")) block.entries (block.rows writer.indent) ∧
        ((∃ entry ∈ block.entries, entry.text? = some "") ↔
          ∃ property ∈ plugin.properties, IsBareCode (isLuaFilter kind plugin) property) ∧
        ((∃ entry row, (entry, row) ∈ block.entries.zip (block.rows writer.indent) ∧
            Columns.EndsInPadding (entry.line writer.indent) row) ↔
          ∃ property ∈ plugin.properties, IsBareCode (isLuaFilter kind plugin) property ∨
            HasFinalTab (isLuaFilter kind plugin) property) := by
  rcases blocks_of_writeBlock waits written with ⟨blocks, planned, same⟩
  refine ⟨fun _ => rfl, blocks, planned, same, ?_⟩
  intro block member
  have gathered := entries_of_pluginBlocks planned member
  have widened := widened_rows writer.indent block
  refine ⟨?_, ?_, ?_⟩
  · apply widened.imp
    rintro _ row rowWidened key text rfl
    rcases exists_of_widened_entryLine rowWidened with
      ⟨keyRow, more, textRow, same, ofKey, ofText⟩
    refine ⟨keyRow, more, textRow, same, ofKey, ofText, ?_⟩
    rw [Columns.widened_nil_iff ofText, String.toList_eq_nil_iff]
  · exact exists_mem_gather_iff (fun _ _ found => emptyText_iff found) gathered
  · rw [← exists_mem_gather_iff (fun _ _ found => lastTab_iff found writer.indent) gathered]
    apply exists_mem_zip_iff
    apply widened.imp
    intro entry row rowWidened
    exact Columns.endsInPadding_iff rowWidened

/-- A filter with code, with nothing as a text and with a text that ends with a
tab. -/
def tabbedFilter : Plugin :=
  Plugin.ofProperties
    [{ key := "name", value := .text "lua" }, { key := "code", value := .text "x = 1 -- one" },
      { key := "note", value := .text "" },
      { key := "add", value := .list [.text "k\t", .list []] }]

/-- Its block, with a space at the end of a row. -/
def tabbedFilterText : String :=
  "[FILTER]\n  name lua\n  code x=1\n  note \"\"\n  add  k \n  add  []\n"

theorem rows_of_writeBlock_tabbed :
    Writer.writeBlock Lua.acceptAll .filter tabbedFilter.properties
        (isLuaFilter .filter tabbedFilter) { indent := 2 } =
      ({ buffer := tabbedFilterText.toList, indent := 2 }, .ok ()) ∧
      ∃ blocks, pluginBlocks Lua.acceptAll .filter tabbedFilter = .ok blocks ∧
        tabbedFilterText.toList = blocks.flatMap (Block.letters 2) ∧
        ∀ block ∈ blocks, (¬ ∃ entry ∈ block.entries, entry.text? = some "") ∧
          ∃ entry row, (entry, row) ∈ block.entries.zip (block.rows 2) ∧
            Columns.EndsInPadding (entry.line 2) row := by
  have letters : blockText Lua.acceptAll 2 .filter tabbedFilter = .ok tabbedFilterText.toList :=
    Lua.toOption_eq_some_iff.mp (by decide +kernel)
  have written : Writer.writeBlock Lua.acceptAll .filter tabbedFilter.properties
      (isLuaFilter .filter tabbedFilter) { indent := 2 } =
        ({ buffer := tabbedFilterText.toList, indent := 2 }, .ok ()) := by
    rw [Writer.writeBlock_eq _ _ _ rfl, letters]
    rfl
  have isFilter : isLuaFilter .filter tabbedFilter = true := by decide +kernel
  have noBareCode : ¬ ∃ property ∈ tabbedFilter.properties, IsBareCode true property := by
    rintro ⟨property, member, -, isCode, source, isText, noTokens⟩
    have script : ∀ property ∈ tabbedFilter.properties, isCodeKey property.key = true →
        property.value.asText? = some "x = 1 -- one" := by
      decide +kernel
    have known := script property member isCode
    rw [isText] at known
    cases known
    have nothing := Lua.toOption_eq_some_iff.mpr noTokens
    revert nothing
    decide +kernel
  have finalTab : HasFinalTab true { key := "add", value := .list [.text "k\t", .list []] } := by
    refine ⟨by decide +kernel, "k\t", List.mem_cons_self, by decide, by decide⟩
  rcases (rows_of_writeBlock rfl written).2 with ⟨blocks, planned, same, each⟩
  rw [isFilter] at each
  refine ⟨written, blocks, planned, congrArg Writer.buffer same, ?_⟩
  intro block member
  rcases each block member with ⟨-, empty, padded⟩
  refine ⟨mt empty.mp noBareCode, padded.mpr ⟨_, ?_, .inr finalTab⟩⟩
  exact List.mem_of_getElem? (i := 3) rfl

def commentFilter : Plugin :=
  Plugin.ofProperties
    [{ key := "name", value := .text "lua" }, { key := "code", value := .text "-- nothing" }]

/-- Code that is a comment is accepted and compacted to nothing, so that its row
ends in padding. -/
theorem rows_of_writeBlock_comment :
    Lua.compact Lua.isChunk "-- nothing" = .ok "" ∧
      write Lua.isChunk {} { pipeline := { filters := [commentFilter] } } =
        .ok "[FILTER]\n    name lua\n    code \n" ∧
      pluginBlocks Lua.isChunk .filter commentFilter =
        .ok [{ header := "FILTER", entries := [.pair "name" "lua", .pair "code" ""] }] ∧
      Columns.EndsInPadding (entryLine 4 "code" "") "    code ".toList := by
  refine ⟨?_, ?_, ?_, ?_⟩
  · exact Lua.toOption_eq_some_iff.mp (by decide +kernel)
  · rw [write_eq_text]
    exact Lua.toOption_eq_some_iff.mp (by decide +kernel)
  · exact Lua.toOption_eq_some_iff.mp (by decide +kernel)
  · exact ⟨"    code".toList, "    code".toList, 0, by decide,
      Columns.widened_self_iff.mpr (by decide), by decide⟩

end Classic

end LogPipeline
