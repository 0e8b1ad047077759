import LogPipeline.Proofs.Classic.Plan
import LogPipeline.Proofs.Classic.Writing
import LogPipeline.Proofs.Lua.Part

namespace LogPipeline

namespace Classic

/-!
# The instances of a document

A document has its instances in a fixed order, and its text has a block for
each of them in that order.  The block of an instance is the one that a writer
with an empty buffer gives for it alone: whatever has been written before, the
same letters are appended.
-/

/-- The instances of a document in the order in which they are written, each
with the kind of its section. -/
def instances (placement : Placement) (document : Document) : List (Section × Plugin) :=
  let pipeline := document.pipeline
  let early :=
    (Section.service, { name := "", properties := document.service }) ::
      (document.customs.map (Prod.mk .custom) ++
        (pipeline.inputs.map (Prod.mk .input) ++
          (Merge.merge pipeline.parsers document.parsers).map (Prod.mk .parser)))
  let multiline :=
    (Merge.merge pipeline.multilineParsers document.multilineParsers).map
      (Prod.mk .multilineParser)
  let late := pipeline.filters.map (Prod.mk .filter) ++ pipeline.outputs.map (Prod.mk .output)
  match placement with
  | .withParsers => early ++ (multiline ++ late)
  | .afterOutputs => early ++ (late ++ multiline)

theorem instances_eq_flatMap_sections (placement : Placement) (document : Document) :
    instances placement document =
      (sections placement document).flatMap fun (kind, plugins) => plugins.map (Prod.mk kind) := by
  cases placement <;> simp [instances, sections]

/-- Every instance belongs to a section with a header. -/
theorem exists_header?_of_mem_instances {placement : Placement} {document : Document}
    {kind : Section} {plugin : Plugin} (member : (kind, plugin) ∈ instances placement document) :
    ∃ header, kind.header? = some header := by
  have written : kind ≠ .environment ∧ kind ≠ .include := by
    constructor <;> rintro rfl <;> cases placement <;> simp [instances] at member
  cases kind with
  | environment => exact absurd rfl written.1
  | «include» => exact absurd rfl written.2
  | _ => exact ⟨_, rfl⟩

/-- The sections of a document are written instance by instance. -/
theorem sectionsText_eq_gather_instances (accepts : Lua.Checker) (indent : Nat)
    (placement : Placement) (document : Document) :
    sectionsText accepts indent (sections placement document) =
      gather (fun (kind, plugin) => blockText accepts indent kind plugin)
        (instances placement document) := by
  rw [instances_eq_flatMap_sections, gather_flatMap, sectionsText_eq_gather]
  congr 1
  funext pair
  rcases pair with ⟨kind, plugins⟩
  dsimp only
  rw [gather_map, sectionText_eq_gather]

/-! ## Single blocks -/

/-- The letters that a writer has after the block of one instance, if it had
nothing before. -/
def blockAlone (accepts : Lua.Checker) (indent : Nat) (kind : Section) (plugin : Plugin) :
    List Char :=
  (Writer.writeBlock accepts kind plugin.properties (isLuaFilter kind plugin)
    { indent := indent }).1.buffer

theorem blockAlone_of_blockText {accepts : Lua.Checker} {indent : Nat} {kind : Section}
    {plugin : Plugin} {letters : List Char}
    (block : blockText accepts indent kind plugin = .ok letters) :
    blockAlone accepts indent kind plugin = letters := by
  rw [blockAlone, Writer.writeBlock_eq accepts kind plugin rfl, block]
  rfl

theorem blockText_of_noProperties (accepts : Lua.Checker) (indent : Nat) (kind : Section)
    {plugin : Plugin} (noProperties : plugin.properties = []) :
    blockText accepts indent kind plugin = .ok [] := by
  rw [blockText, noProperties]
  cases kind.header? <;> rfl

/-- A block of properties is a header and the aligned rows under it. -/
theorem exists_lines_of_blockText {accepts : Lua.Checker} {indent : Nat} {kind : Section}
    {plugin : Plugin} {letters : List Char} {header : String}
    (headed : kind.header? = some header) (hasProperties : plugin.properties ≠ [])
    (block : blockText accepts indent kind plugin = .ok letters) :
    ∃ lines, blockLines accepts indent (isLuaFilter kind plugin) plugin.properties = .ok lines ∧
      letters = headerLine header ++ Columns.text lines := by
  rw [blockText, headed] at block
  dsimp only at block
  rw [if_neg (mt List.isEmpty_iff.mp hasProperties)] at block
  rcases map_eq_ok_iff.mp block with ⟨lines, found, rfl⟩
  exact ⟨lines, found, rfl⟩

/-- The text of a document is its directives and the single blocks of its
instances. -/
theorem blocks_of_write {accepts : Lua.Checker} {options : Options} {document : Document}
    {out : String} (written : write accepts options document = .ok out) :
    out.toList = document.environment.flatMap environmentLine ++
        (document.includes.flatMap includeLine ++
          (instances options.placement document).flatMap fun (kind, plugin) =>
            blockAlone accepts options.indent kind plugin) ∧
      ∀ instanced ∈ instances options.placement document,
        blockText accepts options.indent instanced.1 instanced.2 =
          .ok (blockAlone accepts options.indent instanced.1 instanced.2) := by
  rw [write_eq_text, text, letters, sectionsText_eq_gather_instances] at written
  rcases map_eq_ok_iff.mp written with ⟨_, found, rfl⟩
  rcases map_eq_ok_iff.mp found with ⟨blocks, gathered, rfl⟩
  rcases eq_flatMap_of_gather (fun _ _ => blockAlone_of_blockText) gathered with ⟨joined, each⟩
  refine ⟨?_, each⟩
  rw [String.toList_ofList, joined]

/-- The lines of every instance are there once the document has been written. -/
theorem exists_lines_of_write {accepts : Lua.Checker} {options : Options} {document : Document}
    {out : String} (written : write accepts options document = .ok out) {kind : Section}
    {plugin : Plugin} (member : (kind, plugin) ∈ instances options.placement document) :
    ∃ lines,
      blockLines accepts options.indent (isLuaFilter kind plugin) plugin.properties = .ok lines := by
  by_cases noProperties : plugin.properties = []
  · rw [noProperties]
    exact ⟨[], rfl⟩
  · have block := (blocks_of_write written).2 (kind, plugin) member
    rcases exists_header?_of_mem_instances member with ⟨header, headed⟩
    rcases exists_lines_of_blockText headed noProperties block with ⟨lines, found, -⟩
    exact ⟨lines, found⟩

/-- The text of a document is one line for each environment entry, one for each
include, and the blocks of the instances in their order.  An instance without
properties has no block, any other has one header with its aligned rows, and it
is the same block whatever has been written before. -/
theorem write_eq_blocksAlone {accepts : Lua.Checker} {options : Options} {document : Document}
    {out : String} (written : write accepts options document = .ok out) :
    (out.toList = document.environment.flatMap environmentLine ++
      (document.includes.flatMap includeLine ++
        (instances options.placement document).flatMap fun (kind, plugin) =>
          blockAlone accepts options.indent kind plugin)) ∧
      ∀ kind plugin, (kind, plugin) ∈ instances options.placement document →
        (plugin.properties = [] → blockAlone accepts options.indent kind plugin = []) ∧
        (plugin.properties ≠ [] → ∃ header lines, kind.header? = some header ∧
          blockLines accepts options.indent (isLuaFilter kind plugin) plugin.properties =
            .ok lines ∧
          blockAlone accepts options.indent kind plugin =
            headerLine header ++ Columns.text lines) ∧
        ∀ writer : Writer, writer.aligner = {} → writer.indent = options.indent →
          writer.writeBlock accepts kind plugin.properties (isLuaFilter kind plugin) =
            (writer.append (blockAlone accepts options.indent kind plugin), .ok ()) := by
  rcases blocks_of_write written with ⟨joined, each⟩
  refine ⟨joined, ?_⟩
  intro kind plugin member
  have block := each (kind, plugin) member
  refine ⟨?_, ?_, ?_⟩
  · intro noProperties
    apply blockAlone_of_blockText
    exact blockText_of_noProperties accepts options.indent kind noProperties
  · intro hasProperties
    rcases exists_header?_of_mem_instances member with ⟨header, headed⟩
    rcases exists_lines_of_blockText headed hasProperties block with ⟨lines, found, same⟩
    exact ⟨header, lines, headed, found, same⟩
  · intro writer waits sameIndent
    rw [Writer.writeBlock_eq accepts kind plugin waits, sameIndent, block]

/-- A document with parsers at two places, one of them at both, and with an
input that has no properties. -/
def twoPlaces : Document where
  environment := [{ key := "flush", value := .integer 1 }]
  includes := ["a.conf"]
  service := [{ key := "grace", value := .text "5" }]
  pipeline := {
    inputs := [Plugin.ofProperties [],
      Plugin.ofProperties [{ key := "name", value := .text "dummy" }]]
    parsers := [Plugin.ofProperties [{ key := "name", value := .text "json" }]]
    outputs := [Plugin.ofProperties [{ key := "name", value := .text "stdout" }]] }
  parsers := [Plugin.ofProperties [{ key := "name", value := .text "json" }],
    Plugin.ofProperties [{ key := "name", value := .text "plain" }]]
  multilineParsers := [Plugin.ofProperties [{ key := "name", value := .text "java" }]]

/-- Its text, with the multiline parsers at the end. -/
def twoPlacesText : String :=
  "@SET flush=1\n@INCLUDE a.conf\n[SERVICE]\n    grace 5\n[INPUT]\n    name dummy\n" ++
    "[PARSER]\n    name json\n[PARSER]\n    name plain\n[OUTPUT]\n    name stdout\n" ++
    "[MULTILINE_PARSER]\n    name java\n"

theorem write_eq_blocksAlone_twoPlaces :
    write Lua.acceptAll { placement := .afterOutputs } twoPlaces = .ok twoPlacesText ∧
      twoPlacesText.toList = twoPlaces.environment.flatMap environmentLine ++
        (twoPlaces.includes.flatMap includeLine ++
          (instances .afterOutputs twoPlaces).flatMap fun (kind, plugin) =>
            blockAlone Lua.acceptAll 4 kind plugin) := by
  have written : write Lua.acceptAll { placement := .afterOutputs } twoPlaces =
      .ok twoPlacesText := by
    rw [write_eq_text]
    exact Lua.toOption_eq_some_iff.mp (by decide +kernel)
  exact ⟨written, (write_eq_blocksAlone written).1⟩

end Classic

end LogPipeline
