import TablePipeline.Text.Width

/-! # Grids of text

A grid is written with one line under its header, one bar between two columns, and nothing around
it. Every cell has a blank on both sides and is filled up with blanks to the widest line of its
column. A cell may have several lines; its row is then as high as its highest cell.
-/

namespace TablePipeline.Text

/-- A header, and rows with one text for each of its columns. -/
structure Grid where
  header : List String
  rows : List (List String)

namespace Grid

/-- The lines of a cell. There is always one. -/
def lines (cell : String) : List String :=
  cell.splitOn "\n"

/-- The width of a cell is that of its widest line. -/
def cellWidth (cell : String) : Nat :=
  ((lines cell).map width).foldl max 0

/-- The header and the rows, as one list. -/
def records (grid : Grid) : List (List String) :=
  grid.header :: grid.rows

/-- The width of a column is that of its widest cell. -/
def columnWidth (grid : Grid) (column : Nat) : Nat :=
  (grid.records.map fun record => cellWidth (record[column]?.getD "")).foldl max 0

/-- The widths of all columns. -/
def columnWidths (grid : Grid) : List Nat :=
  (List.range grid.header.length).map grid.columnWidth

/-- A line of a cell with its blanks. -/
def padded (line : String) (columnWidth : Nat) : String :=
  " " ++ line ++ "".pushn ' ' (columnWidth - width line + 1)

/-- One line of a row. A cell that has no such line is blank there. -/
def rowLine (widths : List Nat) (record : List String) (index : Nat) : String :=
  "|".intercalate ((record.zip widths).map fun (cell, columnWidth) =>
    padded ((lines cell)[index]?.getD "") columnWidth)

/-- The lines of a row. -/
def rowLines (widths : List Nat) (record : List String) : List String :=
  let height := (record.map fun cell => (lines cell).length).foldl max 0
  (List.range height).map (rowLine widths record)

/-- The line under the header. -/
def rule (widths : List Nat) : String :=
  "+".intercalate (widths.map fun columnWidth => "".pushn '-' (columnWidth + 2))

/-- The written form of a grid. A grid without columns has none. -/
def text (grid : Grid) : String :=
  let widths := grid.columnWidths
  if widths.isEmpty then ""
  else "\n".intercalate
    (rowLines widths grid.header ++ [rule widths] ++ grid.rows.flatMap (rowLines widths))

end Grid

end TablePipeline.Text
