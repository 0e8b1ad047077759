namespace LogPipeline

namespace Columns

/-!
# Aligned columns

Lines whose cells are separated by tabs are laid out as columns.  A column is
a run of consecutive lines that all have a tab-terminated cell at its index;
every such cell is filled with spaces up to one more than the widest cell of
its run.  The last cell of a line is written as it is.

The layout is computed from left to right: the lines of a run at one index are
searched for runs at the next index, so the widths that are known for a run
belong to the columns on its left.
-/

/-- A line as its cells. -/
abbrev Row := List (List Char)

def padding : Nat := 1

/-- The cells of a line: the pieces between its tabs. -/
def cells (line : List Char) : Row :=
  match line with
  | [] => [[]]
  | letter :: rest =>
    if letter = '\t' then [] :: cells rest
    else
      match cells rest with
      | [] => [[letter]]
      | cell :: others => (letter :: cell) :: others

/-- Whether a row has a tab-terminated cell at an index. -/
def hasCell (row : Row) (column : Nat) : Bool :=
  column + 1 < row.length

def cellWidth (row : Row) (column : Nat) : Nat :=
  (row[column]?.getD []).length

/-- The width of a column over a run of rows. -/
def runWidth (column : Nat) (run : List Row) : Nat :=
  run.foldl (fun width row => max width (cellWidth row column + padding)) 0

def padded (width : Nat) (cell : List Char) : List Char :=
  cell ++ List.replicate (width - cell.length) ' '

/-- The text of a row: every cell but the last filled up to the width of its
column, where that is known. -/
def rowText (widths : List Nat) : Row → List Char
  | [] => []
  | [cell] => cell
  | cell :: next :: rest =>
    (match widths with
      | [] => cell
      | width :: _ => padded width cell) ++ rowText widths.tail (next :: rest)

def longest (rows : List Row) : Nat :=
  rows.foldl (fun count row => max count row.length) 0

/-- Rows in maximal runs that agree on having a tab-terminated cell at an index. -/
def runsAt (column : Nat) (rows : List Row) : List (List Row) :=
  rows.splitBy fun row next => hasCell row column == hasCell next column

/-- The lines of rows whose columns left of an index have the given widths.
A run with a cell at the index is searched for columns further to the right;
a run without one has no further column.  The depth bounds how many columns
are looked for. -/
def linesFrom (depth : Nat) (widths : List Nat) (rows : List Row) : List (List Char) :=
  match depth with
  | 0 => rows.map (rowText widths)
  | depth + 1 =>
    (runsAt widths.length rows).flatMap fun run =>
      if run.all (hasCell · widths.length) then
        linesFrom depth (widths ++ [runWidth widths.length run]) run
      else
        run.map (rowText widths)

def lines (rows : List Row) : List (List Char) :=
  linesFrom (longest rows) [] rows

def terminated (lines : List (List Char)) : List Char :=
  lines.flatMap (· ++ ['\n'])

/-- The text of a batch of lines, laid out as columns. -/
def text (batch : List (List Char)) : List Char :=
  terminated (lines (batch.map cells))

end Columns

/-- Lines that wait to be laid out together. -/
structure Aligner where
  rows : List Columns.Row := []

namespace Aligner

/-- An aligner with one more line.  The line holds no line break. -/
def push (aligner : Aligner) (line : List Char) : Aligner where
  rows := aligner.rows ++ [Columns.cells line]

def isEmpty (aligner : Aligner) : Bool :=
  aligner.rows.isEmpty

/-- The text of the waiting lines, and the aligner without them. -/
def flush (aligner : Aligner) : List Char × Aligner :=
  (Columns.terminated (Columns.lines aligner.rows), {})

end Aligner

end LogPipeline
