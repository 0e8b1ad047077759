import Mathlib.Data.List.DropRight
import Mathlib.Data.List.Fold
import Mathlib.Data.List.MinMax
import Mathlib.Data.List.SplitBy
import LogPipeline.Columns
import LogPipeline.Proofs.Text.Spans

namespace LogPipeline

namespace Columns

/-!
# Columns as runs of rows

The layout looks for runs inside runs.  What it finds can be said of each cell
by itself: around its row stand, without interruption, the rows that have a
tab-terminated cell at the same index, and it is filled up to the widest of
these cells.

Looking inside a run misses nothing.  A row with a cell at an index has one at
every smaller index, so a row that ends a run also ends every run at a greater
index that reaches it.
-/

/-- The rows around a place that all have a tab-terminated cell at an index:
the longest run of them before the place, and the longest from it on. -/
def runAt (column : Nat) (rows : List Row) (place : Nat) : List Row :=
  (rows.take place).rtakeWhile (hasCell · column) ++
    (rows.drop place).takeWhile (hasCell · column)

def widest (column : Nat) (run : List Row) : Nat :=
  (run.map (cellWidth · column)).foldr max 0

/-- The width of a column where it passes through a place. -/
def columnWidth (column : Nat) (rows : List Row) (place : Nat) : Nat :=
  widest column (runAt column rows place) + padding

/-- The text of a row with every cell but the last filled up to a width. -/
def alignedRow (width : Nat → Nat) (row : Row) : List Char :=
  (row.dropLast.mapIdx fun column cell => padded (width column) cell).flatten ++
    row.getLast?.getD []

/-- The texts of rows, each cell but the last as wide as its column is there. -/
def aligned (rows : List Row) : List (List Char) :=
  rows.mapIdx fun place row => alignedRow (columnWidth · rows place) row

/-! ## Rows -/

theorem alignedRow_cons (width : Nat → Nat) (cell next : List Char) (rest : Row) :
    alignedRow width (cell :: next :: rest) =
      padded (width 0) cell ++ alignedRow (fun column => width (column + 1)) (next :: rest) := by
  rw [alignedRow, alignedRow, List.dropLast_cons_cons, List.mapIdx_cons, List.flatten_cons,
    List.getLast?_cons_cons, List.append_assoc]

/-- Where the width of every cell but the last is known, a row is filled up to
these widths. -/
theorem rowText_eq_alignedRow {widths : List Nat} {width : Nat → Nat} {row : Row}
    (known : ∀ column, column + 1 < row.length → widths[column]? = some (width column)) :
    rowText widths row = alignedRow width row := by
  induction row generalizing widths width with
  | nil => rfl
  | cons cell others inductionHypothesis =>
    cases others with
    | nil => rfl
    | cons next rest =>
      have first := known 0 (by simp)
      cases widths with
      | nil => cases first
      | cons given widths =>
        obtain rfl : given = width 0 := Option.some.inj first
        rw [rowText, alignedRow_cons]
        congr 1
        apply inductionHypothesis
        intro column within
        exact known (column + 1) (Nat.succ_lt_succ within)

/-! ## Runs -/

/-- The rows next to a part of the rows have no cell at an index. -/
structure Bounded (column : Nat) (left right : List Row) : Prop where
  left : ∀ row ∈ left.getLast?, hasCell row column = false
  right : ∀ row ∈ right.head?, hasCell row column = false

/-- A row without a cell at an index has none at the next one. -/
theorem hasCell_succ {row : Row} {column : Nat} (lacks : hasCell row column = false) :
    hasCell row (column + 1) = false := by
  rw [hasCell, decide_eq_false_iff_not] at lacks ⊢
  omega

theorem Bounded.succ {column : Nat} {left right : List Row} (bounded : Bounded column left right) :
    Bounded (column + 1) left right where
  left row member := hasCell_succ (bounded.left row member)
  right row member := hasCell_succ (bounded.right row member)

/-- The run around each of its places is the run itself. -/
theorem runAt_of_bounded {column : Nat} {left run right : List Row}
    (allHave : ∀ row ∈ run, hasCell row column = true) (bounded : Bounded column left right)
    {offset : Nat} (inside : offset ≤ run.length) :
    runAt column (left ++ (run ++ right)) (left.length + offset) = run := by
  have before : (left ++ run.take offset).rtakeWhile (hasCell · column) = run.take offset := by
    rw [List.rtakeWhile, List.reverse_append, (takeWhile_append_iff _ _ _).mpr,
      List.reverse_reverse]
    rw [List.head?_reverse]
    refine ⟨?_, bounded.left⟩
    intro row member
    exact allHave row (List.mem_of_mem_take (List.mem_reverse.mp member))
  have after : (run.drop offset ++ right).takeWhile (hasCell · column) = run.drop offset := by
    rw [takeWhile_append_iff]
    refine ⟨?_, bounded.right⟩
    intro row member
    exact allHave row (List.mem_of_mem_drop member)
  rw [runAt, List.take_length_add_append, List.drop_length_add_append,
    List.take_append_of_le_length inside, List.drop_append_of_le_length inside, before, after,
    List.take_append_drop]

/-- A row with the cell stands in the run around its place, all of whose rows
have the cell and whose neighbours have not. -/
theorem exists_bounded_runAt {column place : Nat} {rows : List Row} {row : Row}
    (here : rows[place]? = some row) (has : hasCell row column = true) :
    ∃ left right, rows = left ++ (runAt column rows place ++ right) ∧ Bounded column left right ∧
      (∀ other ∈ runAt column rows place, hasCell other column = true) ∧
      row ∈ runAt column rows place := by
  refine ⟨(rows.take place).rdropWhile (hasCell · column),
    (rows.drop place).dropWhile (hasCell · column), ?_, ⟨?_, ?_⟩, ?_, ?_⟩
  · rw [runAt, ← List.append_assoc, ← List.append_assoc, List.rdropWhile_append_rtakeWhile,
      List.append_assoc, List.takeWhile_append_dropWhile, List.take_append_drop]
  · intro last isLast
    rw [List.rdropWhile, List.getLast?_reverse] at isLast
    exact fails_of_head?_dropWhile last isLast
  · exact fails_of_head?_dropWhile
  · intro other member
    rcases List.mem_append.mp member with before | after
    · exact List.mem_rtakeWhile_imp (p := (hasCell · column)) before
    · exact passes_of_mem_takeWhile other after
  · apply List.mem_append_right
    rw [← List.head?_drop] at here
    rcases List.head?_eq_some_iff.mp here with ⟨rest, same⟩
    rw [same, List.takeWhile_cons_of_pos (p := (hasCell · column)) has]
    exact List.mem_cons_self

theorem foldl_width (column : Nat) {run : List Row} (nonempty : run ≠ []) (start : Nat) :
    run.foldl (fun width row => max width (cellWidth row column + padding)) start =
      max start (widest column run + padding) := by
  induction run generalizing start with
  | nil => exact absurd rfl nonempty
  | cons row rest inductionHypothesis =>
    rw [List.foldl_cons]
    cases rest with
    | nil => simp [widest]
    | cons next later =>
      rw [inductionHypothesis (List.cons_ne_nil _ _)]
      simp only [widest, List.map_cons, List.foldr_cons]
      omega

theorem runWidth_eq (column : Nat) {run : List Row} (nonempty : run ≠ []) :
    runWidth column run = widest column run + padding := by
  rw [runWidth, foldl_width column nonempty, Nat.zero_max]

/-! ## The runs that the layout finds -/

theorem flatten_runsAt (column : Nat) (rows : List Row) : (runsAt column rows).flatten = rows :=
  List.flatten_splitBy _ rows

/-- The rows of a run all have the cell, or none of them has it. -/
theorem hasCell_eq_of_mem_runsAt {column : Nat} {rows run : List Row}
    (member : run ∈ runsAt column rows) {first second : Row} (firstIn : first ∈ run)
    (secondIn : second ∈ run) : hasCell first column = hasCell second column := by
  let agree (row next : Row) : Prop := hasCell row column = hasCell next column
  have chain : run.IsChain agree :=
    (List.isChain_of_mem_splitBy member).imp fun _ _ same => beq_iff_eq.mp same
  have : Trans agree agree agree := ⟨Eq.trans⟩
  have : Std.Symm agree := ⟨fun _ _ => Eq.symm⟩
  exact List.Pairwise.forall_of_forall (R := agree) (fun _ _ => rfl) chain.pairwise firstIn secondIn

/-- Two runs next to each other do not agree on having the cell. -/
theorem hasCell_ne_of_adjacent {column : Nat} {rows first second : List Row}
    {before after : List (List Row)}
    (cut : runsAt column rows = before ++ first :: second :: after) :
    ∃ last ∈ first.getLast?, ∃ head ∈ second.head?,
      hasCell last column ≠ hasCell head column := by
  have chain := List.isChain_getLast_head_splitBy
    (fun row next => hasCell row column == hasCell next column) rows
  rw [← runsAt, cut, List.isChain_append_cons_cons] at chain
  rcases chain.2.1 with ⟨firstNonempty, secondNonempty, differ⟩
  refine ⟨_, List.getLast_mem_getLast? firstNonempty, _, List.head_mem_head? secondNonempty, ?_⟩
  exact beq_eq_false_iff_ne.mp differ

/-- A run whose rows have the cell is bounded inside what is bounded. -/
theorem bounded_of_runsAt {column : Nat} {part run left right : List Row}
    {before after : List (List Row)} (cut : runsAt column part = before ++ run :: after)
    (allHave : ∀ row ∈ run, hasCell row column = true) (bounded : Bounded column left right) :
    Bounded column (left ++ before.flatten) (after.flatten ++ right) := by
  constructor
  · intro row member
    cases before using List.reverseRecOn with
    | nil =>
      rw [List.flatten_nil, List.append_nil] at member
      exact bounded.left row member
    | append_singleton earlier previous =>
      rw [List.append_assoc, List.singleton_append] at cut
      rcases hasCell_ne_of_adjacent cut with ⟨last, isLast, head, isHead, differ⟩
      have same : last = row := by
        rw [List.flatten_append, List.flatten_singleton, List.getLast?_append,
          List.getLast?_append, isLast] at member
        exact Option.some.inj member
      rw [allHave head (List.mem_of_mem_head? isHead)] at differ
      rw [← same]
      exact Bool.eq_false_iff.mpr differ
  · intro row member
    cases after with
    | nil => exact bounded.right row member
    | cons next later =>
      rcases hasCell_ne_of_adjacent cut with ⟨last, isLast, head, isHead, differ⟩
      have same : head = row := by
        rw [List.flatten_cons, List.append_assoc, List.head?_append, isHead] at member
        exact Option.some.inj member
      rw [allHave last (List.mem_of_mem_getLast? isLast)] at differ
      rw [← same]
      exact Bool.eq_false_iff.mpr (Ne.symm differ)

/-! ## The layout -/

/-- The texts of a part of the rows that begins at a place. -/
def alignedFrom (rows : List Row) (place : Nat) (part : List Row) : List (List Char) :=
  part.mapIdx fun offset row => alignedRow (columnWidth · rows (place + offset)) row

theorem alignedFrom_append (rows : List Row) (place : Nat) (first second : List Row) :
    alignedFrom rows place (first ++ second) =
      alignedFrom rows place first ++ alignedFrom rows (place + first.length) second := by
  rw [alignedFrom, List.mapIdx_append]
  congr 2
  funext offset row
  rw [Nat.add_comm offset, ← Nat.add_assoc]

/-- What is written of one run after the other is written of their rows. -/
theorem flatMap_eq_alignedFrom {rows : List Row} {place : Nat} {runs : List (List Row)}
    {write : List Row → List (List Char)}
    (each : ∀ before run after, runs = before ++ run :: after →
      write run = alignedFrom rows (place + before.flatten.length) run) :
    runs.flatMap write = alignedFrom rows place runs.flatten := by
  induction runs generalizing place with
  | nil => rfl
  | cons run runs inductionHypothesis =>
    rw [List.flatMap_cons, List.flatten_cons, alignedFrom_append, each [] run runs rfl]
    congr 1
    apply inductionHypothesis
    intro before other after cut
    rw [each (run :: before) other after (congrArg (run :: ·) cut), List.flatten_cons,
      List.length_append, Nat.add_assoc]

/-- The widths found so far are those of the columns at every place of a part. -/
def Known (widths : List Nat) (rows : List Row) (place : Nat) (part : List Row) : Prop :=
  ∀ column, column < widths.length → ∀ offset, offset < part.length →
    widths[column]? = some (columnWidth column rows (place + offset))

theorem map_rowText_eq_alignedFrom {widths : List Nat} {rows part : List Row} {place : Nat}
    (known : Known widths rows place part) (few : ∀ row ∈ part, row.length ≤ widths.length + 1) :
    part.map (rowText widths) = alignedFrom rows place part := by
  apply List.ext_getElem
  · rw [alignedFrom, List.length_map, List.length_mapIdx]
  · intro offset inMap inPart
    rw [List.length_map] at inMap
    simp only [alignedFrom, List.getElem_map, List.getElem_mapIdx]
    apply rowText_eq_alignedRow
    intro column within
    have short := few part[offset] (List.getElem_mem inMap)
    exact known column (by omega) offset inMap

/-- A part of the rows that the layout comes to: the widths left of the next
index are known, and no run at the next index reaches out of the part. -/
structure Located (rows : List Row) (widths : List Nat) (left part right : List Row) : Prop where
  place : rows = left ++ (part ++ right)
  bounded : Bounded widths.length left right
  known : Known widths rows left.length part

section Step

variable {rows left part right run : List Row} {widths : List Nat} {before after : List (List Row)}

theorem Known.of_cut (known : Known widths rows left.length part)
    (cut : runsAt widths.length part = before ++ run :: after) :
    Known widths rows (left ++ before.flatten).length run := by
  intro column inWidths offset inRun
  have partition := flatten_runsAt widths.length part
  rw [cut, List.flatten_append, List.flatten_cons] at partition
  rw [List.length_append, Nat.add_assoc]
  apply known column inWidths
  rw [← partition]
  simp only [List.length_append]
  omega

theorem mem_of_cut (cut : runsAt widths.length part = before ++ run :: after) {row : Row}
    (member : row ∈ run) : row ∈ part := by
  rw [← flatten_runsAt widths.length part, cut]
  exact List.mem_flatten_of_mem (List.mem_append_right _ List.mem_cons_self) member

/-- A run is the next part that the layout comes to: its own width is that of
its column. -/
theorem Located.of_cut (located : Located rows widths left part right)
    (cut : runsAt widths.length part = before ++ run :: after)
    (allHave : ∀ row ∈ run, hasCell row widths.length = true) :
    Located rows (widths ++ [runWidth widths.length run]) (left ++ before.flatten) run
      (after.flatten ++ right) := by
  have bounded := bounded_of_runsAt cut allHave located.bounded
  have place : rows = (left ++ before.flatten) ++ (run ++ (after.flatten ++ right)) := by
    have partition := flatten_runsAt widths.length part
    rw [cut, List.flatten_append, List.flatten_cons] at partition
    rw [located.place, ← partition]
    simp only [List.append_assoc]
  refine ⟨place, ?_, ?_⟩
  · rw [List.length_append, List.length_singleton]
    exact bounded.succ
  · intro column inWidths offset inRun
    rw [List.length_append, List.length_singleton] at inWidths
    by_cases last : column = widths.length
    · rw [last, List.getElem?_concat_length, columnWidth, place,
        runAt_of_bounded allHave bounded (Nat.le_of_lt inRun),
        runWidth_eq _ (List.ne_nil_of_length_pos (by omega))]
    · rw [List.getElem?_append_left (by omega)]
      exact located.known.of_cut cut column (by omega) offset inRun

end Step

/-- Of a part that the layout comes to, it writes every cell as wide as its
column is in all the rows.  The induction is on how many columns are still
looked for. -/
theorem linesFrom_eq_alignedFrom {depth : Nat} {widths : List Nat} {rows left part right : List Row}
    (located : Located rows widths left part right)
    (few : ∀ row ∈ part, row.length ≤ depth + widths.length) :
    linesFrom depth widths part = alignedFrom rows left.length part := by
  induction depth generalizing widths left part right with
  | zero =>
    apply map_rowText_eq_alignedFrom located.known
    intro row member
    have short := few row member
    omega
  | succ depth inductionHypothesis =>
    have partition := flatten_runsAt widths.length part
    rw [linesFrom, flatMap_eq_alignedFrom, partition]
    intro before run after cut
    rw [← List.length_append]
    by_cases allHave : run.all (hasCell · widths.length) = true
    · rw [if_pos allHave]
      apply inductionHypothesis (located.of_cut cut (List.all_eq_true.mp allHave))
      intro row member
      have short := few row (mem_of_cut cut member)
      rw [List.length_append, List.length_singleton]
      omega
    · rw [if_neg allHave]
      apply map_rowText_eq_alignedFrom (located.known.of_cut cut)
      intro row member
      have isRun : run ∈ runsAt widths.length part := by
        rw [cut]
        exact List.mem_append_right _ List.mem_cons_self
      have lacks : hasCell row widths.length = false := by
        rw [← Bool.not_eq_true]
        intro has
        apply allHave
        rw [List.all_eq_true]
        intro other otherIn
        rw [hasCell_eq_of_mem_runsAt isRun otherIn member]
        exact has
      rw [hasCell, decide_eq_false_iff_not] at lacks
      omega

theorem length_le_longest {rows : List Row} {row : Row} (member : row ∈ rows) :
    row.length ≤ longest rows := by
  have greatest : longest rows = (rows.map List.length).foldr max 0 := by
    rw [longest, ← List.foldl_eq_foldr, List.foldl_map]
  rw [greatest]
  exact List.le_max_of_le' 0 (List.mem_map_of_mem member) (Nat.le_refl _)

/-- The layout writes every cell but the last of a row as wide as the widest
cell of its run, and the last as it is. -/
theorem lines_eq_aligned (rows : List Row) : lines rows = aligned rows := by
  have located : Located rows [] [] rows [] := by
    refine ⟨(List.append_nil rows).symm, ⟨?_, ?_⟩, ?_⟩
    · intro row member
      cases member
    · intro row member
      cases member
    · intro column inWidths
      cases inWidths
  have few : ∀ row ∈ rows, row.length ≤ longest rows + 0 := fun _ member => length_le_longest member
  rw [lines, linesFrom_eq_alignedFrom located few, alignedFrom, aligned]
  simp only [List.length_nil, Nat.zero_add]

end Columns

/-! ## Batches -/

namespace Aligner

/-- What is asked of an aligner: to take a line, or to write those that wait. -/
inductive Call where
  | push (line : List Char)
  | flush
deriving DecidableEq

/-- An aligner and the text written so far, after one more call. -/
def answer (state : Aligner × List Char) : Call → Aligner × List Char
  | .push line => (state.1.push line, state.2)
  | .flush => (state.1.flush.2, state.2 ++ state.1.flush.1)

/-- An aligner that began without lines, and the text written, after calls. -/
def run (calls : List Call) : Aligner × List Char :=
  calls.foldl answer ({}, [])

/-- For each flush the lines pushed since the one before it, given those that
wait at first. -/
def batches (waiting : List (List Char)) : List Call → List (List (List Char))
  | [] => []
  | .push line :: rest => batches (waiting ++ [line]) rest
  | .flush :: rest => waiting :: batches [] rest

/-- The lines pushed since the last flush, or since those that wait at first
where there is none. -/
def unwritten (waiting : List (List Char)) : List Call → List (List Char)
  | [] => waiting
  | .push line :: rest => unwritten (waiting ++ [line]) rest
  | .flush :: rest => unwritten [] rest

/-- The text of a batch: its rows in order, aligned, each ended by a line break. -/
def batchText (batch : List (List Char)) : List Char :=
  Columns.terminated (Columns.aligned (batch.map Columns.cells))

theorem foldl_answer (calls : List Call) (waiting : List (List Char)) (text : List Char) :
    calls.foldl answer ({ rows := waiting.map Columns.cells }, text) =
      ({ rows := (unwritten waiting calls).map Columns.cells },
        text ++ (batches waiting calls).flatMap batchText) := by
  induction calls generalizing waiting text with
  | nil => rw [List.foldl_nil, unwritten, batches, List.flatMap_nil, List.append_nil]
  | cons call rest inductionHypothesis =>
    rw [List.foldl_cons]
    cases call with
    | push line =>
      have pushed : answer ({ rows := waiting.map Columns.cells }, text) (.push line) =
          ({ rows := (waiting ++ [line]).map Columns.cells }, text) := by
        rw [answer, push, List.map_append, List.map_singleton]
      rw [pushed, inductionHypothesis, unwritten, batches]
    | flush =>
      have flushed : answer ({ rows := waiting.map Columns.cells }, text) .flush =
          ({ rows := ([] : List (List Char)).map Columns.cells }, text ++ batchText waiting) := by
        rw [answer, flush, Columns.lines_eq_aligned, batchText, List.map_nil]
      rw [flushed, inductionHypothesis, unwritten, batches, List.flatMap_cons, List.append_assoc]

/-- Whatever the calls are, the text is that of the batches between the flushes,
in their order.  The lines that wait are those since the last flush, so none
waits after a flush. -/
theorem run_eq_batches (calls : List Call) :
    (run calls).2 = (batches [] calls).flatMap batchText ∧
      (run calls).1.rows = (unwritten [] calls).map Columns.cells ∧
      (run (calls ++ [.flush])).1.isEmpty = true := by
  have state := foldl_answer calls [] []
  change run calls = _ at state
  refine ⟨?_, ?_, ?_⟩
  · rw [state, List.nil_append]
  · rw [state]
  · rw [run, List.foldl_append]
    rfl

example : batchText ["a\t1".toList, "plain".toList, "longer\t2\t3".toList, "b\t".toList] =
    "a 1\nplain\nlonger 2 3\nb      \n".toList := by
  decide +kernel

end Aligner

end LogPipeline
