import Mathlib.Data.List.Forall2
import LogPipeline.Proofs.Columns.Runs

namespace LogPipeline

namespace Columns

/-!
# What the layout does to a line

The layout cuts every line at its tabs and puts spaces there, at least one for
each tab; no other character is touched.  A column is wider than each of its
cells, so a row is written with its tabs widened.
-/

/-- A row is a line with one or more spaces in the place of each tab. -/
inductive Widened : List Char → List Char → Prop where
  | nil : Widened [] []
  | letter {first : Char} {line row : List Char} (noTab : first ≠ '\t')
      (rest : Widened line row) : Widened (first :: line) (first :: row)
  | tab {line row : List Char} (more : Nat) (rest : Widened line row) :
      Widened ('\t' :: line) (List.replicate (more + 1) ' ' ++ row)

theorem widened_append {first second firstRow secondRow : List Char}
    (one : Widened first firstRow) (other : Widened second secondRow) :
    Widened (first ++ second) (firstRow ++ secondRow) := by
  induction one with
  | nil => exact other
  | letter noTab _ inductionHypothesis => exact .letter noTab inductionHypothesis
  | tab more _ inductionHypothesis =>
    rw [List.append_assoc]
    exact .tab more inductionHypothesis

theorem exists_of_widened_append {first second row : List Char}
    (widened : Widened (first ++ second) row) :
    ∃ firstRow secondRow, row = firstRow ++ secondRow ∧
      Widened first firstRow ∧ Widened second secondRow := by
  induction first generalizing row with
  | nil => exact ⟨[], row, rfl, .nil, widened⟩
  | cons head tail inductionHypothesis =>
    cases widened with
    | letter noTab rest =>
      rcases inductionHypothesis rest with ⟨firstRow, secondRow, rfl, one, other⟩
      exact ⟨head :: firstRow, secondRow, rfl, .letter noTab one, other⟩
    | tab more rest =>
      rcases inductionHypothesis rest with ⟨firstRow, secondRow, rfl, one, other⟩
      refine ⟨List.replicate (more + 1) ' ' ++ firstRow, secondRow, ?_, .tab more one, other⟩
      rw [List.append_assoc]

theorem widened_nil_iff {line row : List Char} (widened : Widened line row) :
    row = [] ↔ line = [] := by
  cases widened <;> simp [List.replicate_succ]

theorem noTab_of_widened {line row : List Char} (widened : Widened line row) : '\t' ∉ row := by
  induction widened with
  | nil => exact List.not_mem_nil
  | letter noTab _ inductionHypothesis =>
    intro member
    rcases List.mem_cons.mp member with same | later
    · exact noTab same.symm
    · exact inductionHypothesis later
  | tab more _ inductionHypothesis =>
    intro member
    rcases List.mem_append.mp member with space | later
    · exact absurd (List.eq_of_mem_replicate space) (by decide)
    · exact inductionHypothesis later

/-- A line is its own row exactly if it holds no tab. -/
theorem widened_self_iff {line : List Char} : Widened line line ↔ '\t' ∉ line := by
  constructor
  · intro widened
    exact noTab_of_widened widened
  · intro noTab
    induction line with
    | nil => exact .nil
    | cons head tail inductionHypothesis =>
      rcases List.ne_and_not_mem_of_not_mem_cons noTab with ⟨differs, noTabLater⟩
      exact .letter (Ne.symm differs) (inductionHypothesis noTabLater)

theorem eq_of_widened {line row : List Char} (noTab : '\t' ∉ line)
    (widened : Widened line row) : row = line := by
  induction widened with
  | nil => rfl
  | letter _ _ inductionHypothesis =>
    rw [inductionHypothesis (List.not_mem_of_not_mem_cons noTab)]
  | tab more _ _ => exact absurd List.mem_cons_self noTab

theorem exists_of_widened_tab {line row : List Char} (widened : Widened ('\t' :: line) row) :
    ∃ more rest, row = List.replicate (more + 1) ' ' ++ rest ∧ Widened line rest := by
  cases widened with
  | letter noTab _ => exact absurd rfl noTab
  | tab more rest => exact ⟨more, _, rfl, rest⟩

/-- Widening adds no line break and takes none away. -/
theorem count_of_widened {line row : List Char} (widened : Widened line row) :
    row.count '\n' = line.count '\n' := by
  induction widened with
  | nil => rfl
  | letter _ _ inductionHypothesis =>
    rw [List.count_cons, List.count_cons, inductionHypothesis]
  | tab more _ inductionHypothesis =>
    rw [List.count_append, List.count_replicate, if_neg (by decide), Nat.zero_add,
      List.count_cons_of_ne (by decide), inductionHypothesis]

/-! ## The cells of a line -/

theorem cells_ne_nil (line : List Char) : cells line ≠ [] := by
  cases line with
  | nil => exact List.cons_ne_nil _ _
  | cons head tail =>
    rw [cells]
    split
    · exact List.cons_ne_nil _ _
    · split <;> exact List.cons_ne_nil _ _

/-- The cells with tabs between them are the line again. -/
theorem intercalate_cells (line : List Char) :
    List.intercalate ['\t'] (cells line) = line := by
  induction line with
  | nil => rfl
  | cons head tail inductionHypothesis =>
    rw [cells]
    by_cases isTab : head = '\t'
    · rw [if_pos isTab, List.intercalate_cons_of_ne_nil (cells_ne_nil tail),
        inductionHypothesis, isTab]
      rfl
    · rw [if_neg isTab]
      cases found : cells tail with
      | nil => exact absurd found (cells_ne_nil tail)
      | cons cell others =>
        rw [found] at inductionHypothesis
        rw [← inductionHypothesis]
        cases others with
        | nil => rfl
        | cons next rest => rfl

theorem noTab_of_mem_cells {line cell : List Char} (member : cell ∈ cells line) :
    '\t' ∉ cell := by
  induction line generalizing cell with
  | nil =>
    rw [cells, List.mem_singleton] at member
    rw [member]
    exact List.not_mem_nil
  | cons head tail inductionHypothesis =>
    rw [cells] at member
    by_cases isTab : head = '\t'
    · rw [if_pos isTab] at member
      rcases List.mem_cons.mp member with rfl | later
      · exact List.not_mem_nil
      · exact inductionHypothesis later
    · rw [if_neg isTab] at member
      cases found : cells tail with
      | nil => exact absurd found (cells_ne_nil tail)
      | cons first others =>
        rw [found] at member inductionHypothesis
        rcases List.mem_cons.mp member with rfl | later
        · exact List.not_mem_cons_of_ne_of_not_mem (Ne.symm isTab)
            (inductionHypothesis List.mem_cons_self)
        · exact inductionHypothesis (List.mem_cons_of_mem _ later)

/-! ## Rows with wide enough columns -/

/-- A row with a wide enough column for each cell but the last is written with
its tabs widened. -/
theorem widened_alignedRow {width : Nat → Nat} {row : Row} (noTabs : ∀ cell ∈ row, '\t' ∉ cell)
    (wide : ∀ column, hasCell row column = true → cellWidth row column + padding ≤ width column) :
    Widened (List.intercalate ['\t'] row) (alignedRow width row) := by
  induction row generalizing width with
  | nil => exact .nil
  | cons cell others inductionHypothesis =>
    have plain : Widened cell cell := widened_self_iff.mpr (noTabs cell List.mem_cons_self)
    cases others with
    | nil =>
      rw [List.intercalate_singleton]
      exact plain
    | cons next rest =>
      have later := @inductionHypothesis (fun column => width (column + 1))
        (fun other member => noTabs other (List.mem_cons_of_mem _ member))
        (fun column has => wide (column + 1) (by simpa [hasCell] using has))
      have enough : cell.length + padding ≤ width 0 := wide 0 rfl
      have spaces : width 0 - cell.length = width 0 - cell.length - 1 + 1 := by
        rw [padding] at enough
        omega
      rw [List.intercalate_cons_cons, alignedRow_cons, padded, spaces, List.append_assoc,
        List.append_assoc]
      exact widened_append plain (.tab _ later)

/-- A column is wide enough for each of its cells. -/
theorem cellWidth_le_columnWidth {column place : Nat} {rows : List Row} {row : Row}
    (here : rows[place]? = some row) (has : hasCell row column = true) :
    cellWidth row column + padding ≤ columnWidth column rows place := by
  rcases exists_bounded_runAt here has with ⟨-, -, -, -, -, inRun⟩
  apply Nat.add_le_add_right
  exact List.le_max_of_le' 0 (List.mem_map_of_mem inRun) (Nat.le_refl _)

/-- Every line of a batch is written with its tabs widened, in its place. -/
theorem widened_lines (batch : List (List Char)) :
    List.Forall₂ Widened batch (lines (batch.map cells)) := by
  rw [lines_eq_aligned, aligned, List.forall₂_iff_get]
  refine ⟨by rw [List.length_mapIdx, List.length_map], ?_⟩
  intro place inBatch inRows
  simp only [List.get_eq_getElem, List.getElem_mapIdx, List.getElem_map]
  have here : (batch.map cells)[place]? = some (cells batch[place]) := by
    rw [List.getElem?_map, List.getElem?_eq_getElem inBatch, Option.map_some]
  have wide : ∀ column, hasCell (cells batch[place]) column = true →
      cellWidth (cells batch[place]) column + padding ≤
        columnWidth column (batch.map cells) place := by
    intro column has
    exact cellWidth_le_columnWidth here has
  have widened := widened_alignedRow (fun _ => noTab_of_mem_cells) wide
  rwa [intercalate_cells] at widened

/-- The text of a batch has a line break behind each line, and those inside the
lines. -/
theorem count_text (batch : List (List Char)) :
    (text batch).count '\n' = batch.length + batch.flatten.count '\n' := by
  rw [text]
  have allWidened := widened_lines batch
  generalize lines (batch.map cells) = rows at allWidened ⊢
  induction allWidened with
  | nil => rfl
  | @cons line row rest rows widened _ inductionHypothesis =>
    rw [terminated, List.flatMap_cons, ← terminated, List.count_append, List.count_append,
      inductionHypothesis, count_of_widened widened, List.flatten_cons, List.count_append,
      List.length_cons, List.count_singleton_self]
    omega

end Columns

end LogPipeline
