import LogPipeline.Proofs.Columns
import LogPipeline.Proofs.Classic.Verbatim

namespace LogPipeline

/-!
# Indentation

The indent is a part of the first cell of a row, so it takes part in the width
of the first column.  It makes every cell of that column wider by the same
amount, and the column with it: the fill of each cell stays as it was, and so
do the columns further to the right.  Spaces in front of all lines are
therefore spaces in front of all rows.
-/

namespace Columns

/-! ## Rows further to the right -/

/-- A row with spaces in front of its first cell. -/
def shifted (indent : Nat) : Row → Row
  | [] => []
  | cell :: rest => (List.replicate indent ' ' ++ cell) :: rest

theorem cells_indent (indent : Nat) (line : List Char) :
    cells (List.replicate indent ' ' ++ line) = shifted indent (cells line) := by
  rcases List.exists_cons_of_ne_nil (cells_ne_nil line) with ⟨cell, others, split⟩
  induction indent with
  | zero =>
    rw [List.replicate_zero, List.nil_append, split]
    rfl
  | succ indent inductionHypothesis =>
    rw [List.replicate_succ, List.cons_append, cells, if_neg (by decide), inductionHypothesis,
      split]
    rfl

theorem hasCell_shifted (indent : Nat) (row : Row) (column : Nat) :
    hasCell (shifted indent row) column = hasCell row column := by
  cases row <;> rfl

theorem cellWidth_shifted_zero (indent : Nat) {row : Row} (nonempty : row ≠ []) :
    cellWidth (shifted indent row) 0 = indent + cellWidth row 0 := by
  cases row with
  | nil => exact absurd rfl nonempty
  | cons cell rest =>
    change (List.replicate indent ' ' ++ cell).length = indent + cell.length
    rw [List.length_append, List.length_replicate]

theorem cellWidth_shifted_succ (indent : Nat) (row : Row) (column : Nat) :
    cellWidth (shifted indent row) (column + 1) = cellWidth row (column + 1) := by
  cases row <;> rfl

/-- Shifted rows have the same runs. -/
theorem runAt_shifted (indent column : Nat) (rows : List Row) (place : Nat) :
    runAt column (rows.map (shifted indent)) place =
      (runAt column rows place).map (shifted indent) := by
  have same : (hasCell · column) ∘ shifted indent = (hasCell · column) := by
    funext row
    exact hasCell_shifted indent row column
  rw [runAt, runAt, List.map_append, ← List.map_take, ← List.map_drop, List.takeWhile_map, same,
    List.rtakeWhile, List.rtakeWhile, ← List.map_reverse, List.takeWhile_map, same,
    List.map_reverse]

theorem widest_shifted_zero (indent : Nat) {run : List Row} (someRow : run ≠ [])
    (nonempty : ∀ row ∈ run, row ≠ []) :
    widest 0 (run.map (shifted indent)) = indent + widest 0 run := by
  induction run with
  | nil => exact absurd rfl someRow
  | cons row rest inductionHypothesis =>
    have first := cellWidth_shifted_zero indent (nonempty row List.mem_cons_self)
    simp only [widest, List.map_cons, List.foldr_cons] at inductionHypothesis ⊢
    by_cases last : rest = []
    · subst last
      simp only [List.map_nil, List.foldr_nil, first, Nat.max_zero]
    · rw [first, inductionHypothesis last
        (fun other member => nonempty other (List.mem_cons_of_mem _ member))]
      omega

theorem widest_shifted_succ (indent column : Nat) (run : List Row) :
    widest (column + 1) (run.map (shifted indent)) = widest (column + 1) run := by
  rw [widest, widest, List.map_map]
  congr 1
  apply List.map_congr_left
  intro row _
  exact cellWidth_shifted_succ indent row column

/-- A row with a column of its own on the left is filled as before. -/
theorem alignedRow_shifted {indent : Nat} {row : Row} (nonempty : row ≠ [])
    {width wider : Nat → Nat} (first : hasCell row 0 = true → wider 0 = indent + width 0)
    (others : ∀ column, wider (column + 1) = width (column + 1)) :
    alignedRow wider (shifted indent row) =
      List.replicate indent ' ' ++ alignedRow width row := by
  cases row with
  | nil => exact absurd rfl nonempty
  | cons cell rest =>
    cases rest with
    | nil => rfl
    | cons next later =>
      have fill : wider 0 - (List.replicate indent ' ' ++ cell).length =
          width 0 - cell.length := by
        rw [first rfl, List.length_append, List.length_replicate]
        omega
      have sameOthers : (fun column => wider (column + 1)) = fun column => width (column + 1) := by
        funext column
        exact others column
      rw [shifted, alignedRow_cons, alignedRow_cons, padded, padded, fill, sameOthers]
      simp only [List.append_assoc]

theorem aligned_shifted (indent : Nat) {rows : List Row} (nonempty : ∀ row ∈ rows, row ≠ []) :
    aligned (rows.map (shifted indent)) =
      (aligned rows).map (List.replicate indent ' ' ++ ·) := by
  rw [aligned, aligned]
  apply List.ext_getElem
  · rw [List.length_mapIdx, List.length_map, List.length_map, List.length_mapIdx]
  · intro place inShifted inRows
    rw [List.length_map, List.length_mapIdx] at inRows
    simp only [List.getElem_mapIdx, List.getElem_map]
    have here : rows[place]? = some rows[place] := List.getElem?_eq_getElem inRows
    apply alignedRow_shifted (nonempty _ (List.getElem_mem inRows))
    · intro has
      rcases exists_bounded_runAt here has with ⟨left, right, parts, -, -, inRun⟩
      rw [columnWidth, columnWidth, runAt_shifted,
        widest_shifted_zero indent (List.ne_nil_of_mem inRun), Nat.add_assoc]
      intro row member
      apply nonempty
      rw [parts]
      exact List.mem_append_right _ (List.mem_append_left _ member)
    · intro column
      rw [columnWidth, columnWidth, runAt_shifted, widest_shifted_succ]

/-- Spaces in front of all lines of a batch stand in front of all its rows, and
nothing else changes. -/
theorem lines_indent (indent : Nat) (batch : List (List Char)) :
    lines ((batch.map (List.replicate indent ' ' ++ ·)).map cells) =
      (lines (batch.map cells)).map (List.replicate indent ' ' ++ ·) := by
  have shiftedCells : (batch.map (List.replicate indent ' ' ++ ·)).map cells =
      (batch.map cells).map (shifted indent) := by
    rw [List.map_map, List.map_map]
    apply List.map_congr_left
    intro line _
    exact cells_indent indent line
  rw [shiftedCells, lines_eq_aligned, lines_eq_aligned]
  apply aligned_shifted
  intro row member
  rcases List.mem_map.mp member with ⟨line, -, rfl⟩
  exact cells_ne_nil line

end Columns

namespace Classic

/-! ## Blocks and documents -/

theorem Entry.line_indent (indent : Nat) (entry : Entry) :
    entry.line indent = List.replicate indent ' ' ++ entry.line 0 := by
  cases entry <;> rfl

/-- The rows of a block are those without an indent, each with spaces in front. -/
theorem Block.rows_indent (indent : Nat) (block : Block) :
    block.rows indent = (block.rows 0).map (List.replicate indent ' ' ++ ·) := by
  have indented : block.entries.map (Entry.line indent) =
      (block.entries.map (Entry.line 0)).map (List.replicate indent ' ' ++ ·) := by
    rw [List.map_map]
    apply List.map_congr_left
    intro entry _
    exact entry.line_indent indent
  rw [Block.rows, Block.rows, indented, Columns.lines_indent]

/-- A document that is written without an indent is written with any: its text
has that many spaces in front of each row of each block, and all its headers,
directives and fills are as they are without an indent. -/
theorem write_indent {accepts : Lua.Checker} {placement : Placement} {document : Document}
    {out : String}
    (written : write accepts { indent := 0, placement := placement } document = .ok out)
    (indent : Nat) :
    ∃ blocks, plan accepts placement document = .ok blocks ∧
      out.toList = document.environment.flatMap environmentLine ++
        (document.includes.flatMap includeLine ++
          blocks.flatMap fun block =>
            headerLine block.header ++ Columns.terminated (block.rows 0)) ∧
      write accepts { indent := indent, placement := placement } document =
        .ok (String.ofList (document.environment.flatMap environmentLine ++
          (document.includes.flatMap includeLine ++
            blocks.flatMap fun block =>
              headerLine block.header ++
                Columns.terminated ((block.rows 0).map (List.replicate indent ' ' ++ ·))))) := by
  rcases plan_of_write written with ⟨blocks, planned, flush⟩
  refine ⟨blocks, planned, flush, ?_⟩
  have indented : Block.letters indent = fun block : Block =>
      headerLine block.header ++
        Columns.terminated ((block.rows 0).map (List.replicate indent ' ' ++ ·)) := by
    funext block
    rw [Block.letters, block.rows_indent indent]
  rw [write_eq_text, text, letters_eq_plan, ← indented]
  dsimp only at planned ⊢
  rw [planned]
  rfl

/-- A document whose blocks have rule lines, a list, a script and a key with a tab. -/
def mixedRows : Document where
  environment := [{ key := "host", value := .text "a" }]
  service := [{ key := "flush", value := .integer 1 }, { key := "log\tlevel", value := .text "" }]
  pipeline := {
    filters := [Plugin.ofProperties
      [{ key := "name", value := .text "lua" },
        { key := "code", value := .text "x = 1" },
        { key := "add", value := .list [.text "k v", .text "w"] }]] }
  multilineParsers := [Plugin.ofProperties
    [{ key := "name", value := .text "java" },
      { key := "rules",
        value := .map [("state", .text "a"), ("regex", .text "/b/"), ("next_state", .text "a")] }]]

def mixedRowsText : String :=
  "@SET host=a\n[SERVICE]\nflush 1\nlog   level \"\"\n" ++
    "[MULTILINE_PARSER]\nname java\nrule \"a\" \"/b/\" \"a\"\n" ++
    "[FILTER]\nname lua\ncode x=1\nadd  k v\nadd  w\n"

theorem write_indent_mixedRows :
    write Lua.acceptAll { indent := 0 } mixedRows = .ok mixedRowsText ∧
      ∃ blocks, plan Lua.acceptAll .withParsers mixedRows = .ok blocks ∧
        mixedRowsText.toList = mixedRows.environment.flatMap environmentLine ++
          (mixedRows.includes.flatMap includeLine ++
            blocks.flatMap fun block =>
              headerLine block.header ++ Columns.terminated (block.rows 0)) ∧
        write Lua.acceptAll { indent := 3 } mixedRows =
          .ok (String.ofList (mixedRows.environment.flatMap environmentLine ++
            (mixedRows.includes.flatMap includeLine ++
              blocks.flatMap fun block =>
                headerLine block.header ++
                  Columns.terminated ((block.rows 0).map (List.replicate 3 ' ' ++ ·))))) := by
  have written : write Lua.acceptAll { indent := 0 } mixedRows = .ok mixedRowsText := by
    rw [write_eq_text]
    exact Lua.toOption_eq_some_iff.mp (by decide +kernel)
  exact ⟨written, write_indent written 3⟩

end Classic

end LogPipeline
