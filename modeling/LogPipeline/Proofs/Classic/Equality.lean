import LogPipeline.Proofs.Classic.Instances
import LogPipeline.Proofs.Merge
import LogPipeline.Proofs.Value.Equality
import LogPipeline.Proofs.Value.Json

namespace LogPipeline

/-!
# Equal instances in the classic text

The sign of a zero is not written: a zero is a whole number and has the digit
of nothing, in a line of its own as well as inside a list or a map.  So a value
and the same value with its zeros made positive have one text, a property has
the same lines, an instance the same block, and where one of them fails the
other fails alike.  Hence nothing is lost when one of two equal instances is
left out.
-/

namespace Json

theorem wholeNumber_of_isZero {number : Binary64} (zero : number.isZero = true) :
    wholeNumber number = 0 := by
  rw [Binary64.isZero, Bool.and_eq_true, decide_eq_true_eq, decide_eq_true_eq] at zero
  rw [wholeNumber, Binary64.numerator, Binary64.significand, if_pos zero.1, zero.2, Nat.zero_mul,
    Nat.zero_div]
  cases number.isNegative <;> rfl

theorem isIntegral_of_isZero {number : Binary64} (zero : number.isZero = true) :
    number.isIntegral = true := by
  cases whole : number.isIntegral with
  | true => rfl
  | false =>
    rw [isZero_of_not_isIntegral whole] at zero
    cases zero

theorem real_of_isZero {number : Binary64} (zero : number.isZero = true) : real number = ['0'] := by
  rw [real, if_pos (isIntegral_of_isZero zero), wholeNumber_of_isZero zero, Digits.signed_zero]

theorem real_normal (number : Binary64) : real number.normal = real number :=
  Binary64.view_normal (fun _ zero => real_of_isZero zero) number

end Json

namespace FixedPoint

theorem text_of_isZero {number : Binary64} (zero : number.isZero = true) : text number = "0" := by
  rcases Json.isIntegral_iff.mp (Json.isIntegral_of_isZero zero) with ⟨finite, whole, -⟩
  rw [text_of_whole finite whole, Json.wholeNumber_of_isZero zero, Digits.signed_zero]

theorem text_normal (number : Binary64) : text number.normal = text number :=
  Binary64.view_normal (fun _ zero => text_of_isZero zero) number

end FixedPoint

namespace Json

open Value (normalItems normalEntries)

mutual

theorem letters_normal (value : Value) : letters value.normal = letters value := by
  cases value with
  | text | integer | truth => rw [Value.normal]
  | real number => rw [Value.normal, letters, letters, real_normal]
  | list items => rw [Value.normal, letters, letters, itemLetters_normalItems items]
  | map entries => rw [Value.normal, letters, letters, entryLetters_normalEntries entries]

theorem itemLetters_normalItems (items : List Value) :
    itemLetters (normalItems items) = itemLetters items := by
  match items with
  | [] => rw [normalItems]
  | [item] => rw [normalItems, normalItems, itemLetters, itemLetters, letters_normal item]
  | item :: next :: items =>
    have later := itemLetters_normalItems (next :: items)
    rw [normalItems] at later
    rw [normalItems, normalItems, itemLetters, itemLetters, letters_normal item, later]

theorem entryLetters_normalEntries (entries : List (String × Value)) :
    entryLetters (normalEntries entries) = entryLetters entries := by
  match entries with
  | [] => rw [normalEntries]
  | [(key, value)] =>
    rw [normalEntries, normalEntries, entryLetters, entryLetters, letters_normal value]
  | (key, value) :: (nextKey, next) :: entries =>
    have later := entryLetters_normalEntries ((nextKey, next) :: entries)
    rw [normalEntries] at later
    rw [normalEntries, normalEntries, entryLetters, entryLetters, letters_normal value, later]

end

theorem text_normal (value : Value) : text value.normal = text value := by
  rw [text, letters_normal, text]

end Json

namespace Classic

/-! ## Values -/

theorem plainText_normal (value : Value) : plainText value.normal = plainText value := by
  cases value with
  | text | integer | truth => rw [Value.normal]
  | real number => rw [Value.normal, plainText, plainText, FixedPoint.text_normal]
  | list items =>
    rw [plainText, ← Json.text_normal, Value.normal, plainText]
  | map entries =>
    rw [plainText, ← Json.text_normal, Value.normal, plainText]

theorem renderRule?_normalEntries (entries : List (String × Value)) :
    renderRule? (Value.normalEntries entries) = renderRule? entries := by
  rw [renderRule?, renderRule?, Value.entry?_normalEntries, Value.entry?_normalEntries,
    Value.entry?_normalEntries]
  cases Value.entry? entries "state" <;> cases Value.entry? entries "regex" <;>
    cases Value.entry? entries "next_state" <;>
    simp only [Option.map_some, Option.map_none, ruleField, plainText_normal]

theorem render_normal (rulesExpected : Bool) (value : Value) :
    render rulesExpected value.normal = render rulesExpected value := by
  cases value with
  | text | integer | truth => rw [Value.normal]
  | real number => rw [Value.normal, render, render, FixedPoint.text_normal]
  | list items => rw [render, ← Json.text_normal, Value.normal, render]
  | map entries =>
    have sameJson := Json.text_normal (.map entries)
    rw [Value.normal] at sameJson ⊢
    simp only [render, renderRule?_normalEntries, sameJson]

theorem ruleLine?_normal (rulesExpected : Bool) (value : Value) :
    ruleLine? rulesExpected value.normal = ruleLine? rulesExpected value := by
  cases value with
  | map entries =>
    cases rulesExpected with
    | false => rfl
    | true => exact renderRule?_normalEntries entries
  | _ => cases rulesExpected <;> rfl

/-! ## Properties and instances -/

theorem itemLine_normal (indent : Nat) (key : String) (rulesExpected : Bool) (value : Value) :
    itemLine indent key rulesExpected value.normal = itemLine indent key rulesExpected value := by
  rw [itemLine, ruleLine?_normal, render_normal, itemLine]

theorem rowValues_normal (value : Value) :
    rowValues value.normal = (rowValues value).map .normal := by
  cases value with
  | list items => rw [Value.normal, Value.normalItems_eq_map, rowValues, rowValues]
  | _ => rfl

theorem codeText_normal (accepts : Lua.Checker) (value : Value) :
    codeText accepts value.normal = codeText accepts value := by
  cases value <;> rfl

theorem propertyLines_normal (accepts : Lua.Checker) (indent : Nat) (luaFilter : Bool)
    (property : Property) :
    propertyLines accepts indent luaFilter property.normal =
      propertyLines accepts indent luaFilter property := by
  have sameLines : valueLines indent luaFilter property.normal =
      valueLines indent luaFilter property := by
    rw [valueLines, valueLines, Property.normal, rowValues_normal, List.map_map]
    apply List.map_congr_left
    intro value _
    exact itemLine_normal indent property.key _ value
  rw [propertyLines, propertyLines, sameLines, Property.normal, codeText_normal]

theorem blockLines_normal (accepts : Lua.Checker) (indent : Nat) (luaFilter : Bool)
    (properties : Properties) :
    blockLines accepts indent luaFilter (properties.map .normal) =
      blockLines accepts indent luaFilter properties := by
  rw [blockLines_eq_gather, blockLines_eq_gather, gather_map]
  simp only [propertyLines_normal]

theorem blockText_normal (accepts : Lua.Checker) (indent : Nat) (kind : Section) (plugin : Plugin) :
    blockText accepts indent kind plugin.normal = blockText accepts indent kind plugin := by
  rw [blockText, blockText, Plugin.normal, List.isEmpty_map, blockLines_normal]
  rfl

theorem writeBlock_normal (accepts : Lua.Checker) (kind : Section) (properties : Properties)
    (luaFilter : Bool) (writer : Writer) :
    writer.writeBlock accepts kind (properties.map .normal) luaFilter =
      writer.writeBlock accepts kind properties luaFilter := by
  rw [Writer.writeBlock, Writer.writeBlock, List.isEmpty_map, Writer.pushProperties_eq,
    Writer.pushProperties_eq, blockLines_normal]

/-! ## Documents -/

/-- The instances that a document declares for the blocks of a kind, at one
place or at two. -/
def declared (document : Document) : Section → List Plugin
  | .environment => []
  | .include => []
  | .service => [{ name := "", properties := document.service }]
  | .custom => document.customs
  | .input => document.pipeline.inputs
  | .parser => document.pipeline.parsers ++ document.parsers
  | .multilineParser => document.pipeline.multilineParsers ++ document.multilineParsers
  | .filter => document.pipeline.filters
  | .output => document.pipeline.outputs

/-- The blocks that a document is written as, each with the kind of its
section. -/
def blocksWritten (accepts : Lua.Checker) (options : Options) (document : Document) :
    List (Section × List Char) :=
  (instances options.placement document).map fun (kind, plugin) =>
    (kind, blockAlone accepts options.indent kind plugin)

/-- Writing the instances of a document and writing all that it declares gives
the same blocks. -/
theorem exists_instance_iff_declared {Image : Type} {image : Plugin → Image}
    (alike : ∀ left right, left.same right = true → image left = image right)
    (placement : Placement) (document : Document) (kind : Section) (result : Image) :
    (∃ plugin, (kind, plugin) ∈ instances placement document ∧ image plugin = result) ↔
      ∃ plugin ∈ declared document kind, image plugin = result := by
  cases kind with
  | parser =>
    have kept : ∀ plugin, (Section.parser, plugin) ∈ instances placement document ↔
        plugin ∈ Merge.merge document.pipeline.parsers document.parsers := by
      intro plugin
      cases placement <;> simp [instances]
    simp only [kept]
    exact Merge.exists_mem_merge_iff alike _ _ result
  | multilineParser =>
    have kept : ∀ plugin, (Section.multilineParser, plugin) ∈ instances placement document ↔
        plugin ∈ Merge.merge document.pipeline.multilineParsers document.multilineParsers := by
      intro plugin
      cases placement <;> simp [instances]
    simp only [kept]
    exact Merge.exists_mem_merge_iff alike _ _ result
  | _ => cases placement <;> simp [instances, declared]

theorem mem_blocksWritten_iff {accepts : Lua.Checker} {options : Options} {document : Document}
    {out : String} (written : write accepts options document = .ok out) (kind : Section)
    (block : List Char) :
    (kind, block) ∈ blocksWritten accepts options document ↔
      ∃ plugin, (kind, plugin) ∈ instances options.placement document ∧
        blockText accepts options.indent kind plugin = .ok block := by
  have each := (blocks_of_write written).2
  rw [blocksWritten, List.mem_map]
  constructor
  · rintro ⟨⟨_, plugin⟩, member, ⟨⟩⟩
    exact ⟨plugin, member, each (kind, plugin) member⟩
  · rintro ⟨plugin, member, found⟩
    exact ⟨(kind, plugin), member, congrArg (Prod.mk kind) (blockAlone_of_blockText found)⟩

/-- Equal values have one text, whether or not rules are expected.  Equal
instances have one block in every section and with every indent, or fail with
one failure, whatever has been written before.  So merging costs no block: the
text of a document is made of its directives and its blocks, and a block of a
kind is among them exactly if an instance that the document declares for that
kind, at either place, has it. -/
theorem blocks_of_same (accepts : Lua.Checker) :
    (∀ left right : Value, left.same right = true → ∀ rulesExpected,
      render rulesExpected left = render rulesExpected right) ∧
    (∀ left right : Plugin, left.same right = true → ∀ kind,
      (∀ indent, blockText accepts indent kind left = blockText accepts indent kind right) ∧
        ∀ writer : Writer,
          writer.writeBlock accepts kind left.properties (isLuaFilter kind left) =
            writer.writeBlock accepts kind right.properties (isLuaFilter kind right)) ∧
    ∀ options document out, write accepts options document = .ok out →
      out.toList = document.environment.flatMap environmentLine ++
          (document.includes.flatMap includeLine ++
            (blocksWritten accepts options document).flatMap (·.2)) ∧
        ∀ kind block, (kind, block) ∈ blocksWritten accepts options document ↔
          ∃ plugin ∈ declared document kind,
            blockText accepts options.indent kind plugin = .ok block := by
  have sameBlock : ∀ left right : Plugin, left.same right = true → ∀ indent kind,
      blockText accepts indent kind left = blockText accepts indent kind right := by
    intro left right same indent kind
    rw [← blockText_normal, Plugin.normal_eq_of_same same, blockText_normal]
  refine ⟨?_, ?_, ?_⟩
  · intro left right same rulesExpected
    rw [← render_normal, (Value.same_iff.mp same).1, render_normal]
  · intro left right same kind
    refine ⟨fun indent => sameBlock left right same indent kind, ?_⟩
    intro writer
    have normal := Plugin.mk.inj (Plugin.normal_eq_of_same same)
    rw [← writeBlock_normal, normal.2, writeBlock_normal, isLuaFilter, normal.1, isLuaFilter]
  · intro options document out written
    refine ⟨?_, ?_⟩
    · rw [(blocks_of_write written).1, blocksWritten, List.flatMap_map]
    · intro kind block
      rw [mem_blocksWritten_iff written]
      exact exists_instance_iff_declared
        (fun left right same => sameBlock left right same options.indent kind) _ _ _ _

/-- A parser with a zero as a value, as an item and as a field of a rule. -/
def zeroParser (zero : Binary64) : Plugin :=
  Plugin.ofProperties
    [{ key := "name", value := .text "p" }, { key := "Offset", value := .real zero },
      { key := "spans", value := .map [("at", .list [.real zero])] },
      { key := "rules", value := .list [.map
        [("state", .real zero), ("regex", .text "/a/"), ("next_state", .text "cont")]] }]

/-- A document with a zero of either sign in its parsers, at two places. -/
def twoZeros : Document where
  pipeline := { multilineParsers := [zeroParser ⟨0⟩] }
  multilineParsers := [zeroParser ⟨0x8000000000000000⟩]

/-- Its text has one block. -/
def twoZerosText : String :=
  "[MULTILINE_PARSER]\n    name   p\n    Offset 0\n    spans  \x7b\"at\":[0]\x7d\n" ++
    "    rule   \"0\" \"/a/\" \"cont\"\n"

theorem blocks_of_same_twoZeros :
    (zeroParser ⟨0⟩).same (zeroParser ⟨0x8000000000000000⟩) = true ∧
      blockText Lua.acceptAll 4 .multilineParser (zeroParser ⟨0⟩) =
        blockText Lua.acceptAll 4 .multilineParser (zeroParser ⟨0x8000000000000000⟩) ∧
      write Lua.acceptAll {} twoZeros = .ok twoZerosText ∧
      ∀ block, (.multilineParser, block) ∈ blocksWritten Lua.acceptAll {} twoZeros ↔
        ∃ plugin ∈ declared twoZeros .multilineParser,
          blockText Lua.acceptAll 4 .multilineParser plugin = .ok block := by
  have same : (zeroParser ⟨0⟩).same (zeroParser ⟨0x8000000000000000⟩) = true := by
    decide +kernel
  have written : write Lua.acceptAll {} twoZeros = .ok twoZerosText := by
    rw [write_eq_text]
    exact Lua.toOption_eq_some_iff.mp (by decide +kernel)
  have alike := (blocks_of_same Lua.acceptAll).2
  refine ⟨same, ?_, written, ?_⟩
  · exact (alike.1 _ _ same .multilineParser).1 4
  · exact (alike.2 {} twoZeros twoZerosText written).2 .multilineParser

end Classic

end LogPipeline
