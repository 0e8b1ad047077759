import LogPipeline.Proofs.Columns
import LogPipeline.Proofs.Classic.Plan
import LogPipeline.Proofs.Classic.Writing
import LogPipeline.Lua.Chunk
import LogPipeline.Proofs.Lua.Part

namespace LogPipeline

namespace Classic

/-!
# Keys and texts in the rows of a block

A row is the line of its entry with spaces in the place of tabs.  One tab is
the writer's own, between the key and the text; any other belongs to the key
or to the text, and is lost.
-/

/-- A row that is the indent, a key, one or more spaces and a text. -/
def Verbatim (indent : Nat) (key text : String) (row : List Char) : Prop :=
  ∃ more, row = List.replicate indent ' ' ++
    (key.toList ++ (List.replicate (more + 1) ' ' ++ text.toList))

/-- Every row of a block is the line of its entry with the tabs widened. -/
theorem widened_rows (indent : Nat) (block : Block) :
    List.Forall₂ (fun entry row => Columns.Widened (entry.line indent) row)
      block.entries (block.rows indent) := by
  have widened := Columns.widened_lines (block.entries.map (Entry.line indent))
  rwa [List.forall₂_map_left_iff] at widened

/-- The row of an entry is the indent, the key, padding and the text. -/
theorem exists_of_widened_entryLine {indent : Nat} {key text : String} {row : List Char}
    (widened : Columns.Widened (entryLine indent key text) row) :
    ∃ keyRow more textRow,
      row = List.replicate indent ' ' ++
        (keyRow ++ (List.replicate (more + 1) ' ' ++ textRow)) ∧
      Columns.Widened key.toList keyRow ∧ Columns.Widened text.toList textRow := by
  have indentNoTab : '\t' ∉ List.replicate indent ' ' := by
    intro member
    exact absurd (List.eq_of_mem_replicate member) (by decide)
  rw [entryLine] at widened
  rcases Columns.exists_of_widened_append widened with ⟨indentRow, afterIndent, rfl, one, rest⟩
  rcases Columns.exists_of_widened_append rest with ⟨keyRow, afterKey, rfl, two, later⟩
  rcases Columns.exists_of_widened_tab later with ⟨more, textRow, rfl, three⟩
  rw [Columns.eq_of_widened indentNoTab one]
  exact ⟨keyRow, more, textRow, rfl, two, three⟩

theorem verbatim_of_noTab {indent : Nat} {key text : String} {row : List Char}
    (keyNoTab : '\t' ∉ key.toList) (textNoTab : '\t' ∉ text.toList)
    (widened : Columns.Widened (entryLine indent key text) row) :
    Verbatim indent key text row := by
  rcases exists_of_widened_entryLine widened with ⟨keyRow, more, textRow, rfl, ofKey, ofText⟩
  refine ⟨more, ?_⟩
  rw [Columns.eq_of_widened keyNoTab ofKey, Columns.eq_of_widened textNoTab ofText]

/-- A row holds its key and its text unchanged exactly if neither has a tab. -/
theorem verbatim_iff {indent : Nat} {key text : String} {row : List Char}
    (widened : Columns.Widened (entryLine indent key text) row) :
    Verbatim indent key text row ↔ '\t' ∉ key.toList ∧ '\t' ∉ text.toList := by
  constructor
  · rintro ⟨more, rfl⟩
    have noTab := Columns.noTab_of_widened widened
    constructor
    · intro member
      apply noTab
      exact List.mem_append_right _ (List.mem_append_left _ member)
    · intro member
      apply noTab
      exact List.mem_append_right _ (List.mem_append_right _ (List.mem_append_right _ member))
  · rintro ⟨keyNoTab, textNoTab⟩
    exact verbatim_of_noTab keyNoTab textNoTab widened

/-- The text of a document as its planned blocks. -/
theorem plan_of_write {accepts : Lua.Checker} {options : Options} {document : Document}
    {out : String} (written : write accepts options document = .ok out) :
    ∃ blocks, plan accepts options.placement document = .ok blocks ∧
      out.toList = document.environment.flatMap environmentLine ++
        (document.includes.flatMap includeLine ++
          blocks.flatMap (Block.letters options.indent)) := by
  rw [write_eq_text, text, letters_eq_plan] at written
  rcases map_eq_ok_iff.mp written with ⟨_, found, rfl⟩
  rcases map_eq_ok_iff.mp found with ⟨blocks, planned, rfl⟩
  exact ⟨blocks, planned, String.toList_ofList⟩

/-- In the text of a document, every row that is no rule line is the indent,
its key, one or more spaces and its text, exactly if neither the key nor the
text has a tab; a text of one line that is not empty is its own text. -/
theorem rows_of_write {accepts : Lua.Checker} {options : Options} {document : Document}
    {out : String} (written : write accepts options document = .ok out) :
    ∃ blocks, plan accepts options.placement document = .ok blocks ∧
      out.toList = document.environment.flatMap environmentLine ++
        (document.includes.flatMap includeLine ++
          blocks.flatMap (Block.letters options.indent)) ∧
      (∀ block ∈ blocks, List.Forall₂ (fun entry row => ∀ key text, entry = .pair key text →
        (Verbatim options.indent key text row ↔ '\t' ∉ key.toList ∧ '\t' ∉ text.toList))
        block.entries (block.rows options.indent)) ∧
      ∀ rulesExpected content, content ≠ "" → '\n' ∉ content.toList →
        render rulesExpected (.text content) = content := by
  rcases plan_of_write written with ⟨blocks, planned, letters⟩
  refine ⟨blocks, planned, letters, ?_, ?_⟩
  · intro block _
    apply (widened_rows options.indent block).imp
    rintro _ row widened key text rfl
    exact verbatim_iff widened
  · intro rulesExpected content notEmpty oneLine
    exact renderText_of_oneLine notEmpty oneLine

def scriptDocument (code : String) : Document where
  pipeline := { filters := [Plugin.ofProperties
    [{ key := "name", value := .text "lua" }, { key := "code", value := .text code }]] }

theorem rows_of_write_script :
    write Lua.isChunk {} (scriptDocument "x = 'a b'") =
        .ok "[FILTER]\n    name lua\n    code x='a b'\n" ∧
      ∃ blocks, plan Lua.isChunk .withParsers (scriptDocument "x = 'a b'") = .ok blocks ∧
        "[FILTER]\n    name lua\n    code x='a b'\n".toList =
          (scriptDocument "x = 'a b'").environment.flatMap environmentLine ++
            ((scriptDocument "x = 'a b'").includes.flatMap includeLine ++
              blocks.flatMap (Block.letters 4)) ∧
        (∀ block ∈ blocks, List.Forall₂ (fun entry row => ∀ key text, entry = .pair key text →
          (Verbatim 4 key text row ↔ '\t' ∉ key.toList ∧ '\t' ∉ text.toList))
          block.entries (block.rows 4)) ∧
        ∀ rulesExpected content, content ≠ "" → '\n' ∉ content.toList →
          render rulesExpected (.text content) = content := by
  have written : write Lua.isChunk {} (scriptDocument "x = 'a b'") =
      .ok "[FILTER]\n    name lua\n    code x='a b'\n" := by
    rw [write_eq_text]
    exact Lua.toOption_eq_some_iff.mp (by decide +kernel)
  have rows := rows_of_write written
  exact ⟨written, rows⟩

/-- A tab inside a script is lost, also where a blank means another string. -/
theorem rows_of_write_tab :
    Lua.compact Lua.isChunk "x='a\tb'" = .ok "x='a\tb'" ∧
      plan Lua.isChunk .withParsers (scriptDocument "x='a\tb'") = .ok
        [{ header := "FILTER", entries := [.pair "name" "lua", .pair "code" "x='a\tb'"] }] ∧
      write Lua.isChunk {} (scriptDocument "x='a\tb'") =
        .ok "[FILTER]\n    name lua\n    code x='a b'\n" ∧
      ¬ Verbatim 4 "code" "x='a\tb'" "    code x='a b'".toList := by
  refine ⟨?_, ?_, ?_, ?_⟩
  · exact Lua.toOption_eq_some_iff.mp (by decide +kernel)
  · exact Lua.toOption_eq_some_iff.mp (by decide +kernel)
  · rw [write_eq_text]
    exact Lua.toOption_eq_some_iff.mp (by decide +kernel)
  · rintro ⟨more, same⟩
    have noTab : '\t' ∉ "    code x='a b'".toList := by decide
    apply noTab
    rw [same]
    apply List.mem_append_right
    apply List.mem_append_right
    apply List.mem_append_right
    decide

end Classic

end LogPipeline
