import TablePipeline.Cell.Text
import TablePipeline.Table
import TablePipeline.Text.Grid

/-! # Tables for a reader

A table is shown as a grid of the bare values of its first rows.
-/

namespace TablePipeline.Table

/-- The grid of at most `limit` rows. -/
def grid (table : Table) (limit : Nat) : Text.Grid where
  header := table.schema.names
  rows := (table.rows.take limit).map (·.map Cell.display)

/-- At most `limit` rows of a table, with a note of how many rows there are if some are left out. -/
def listing (table : Table) (limit : Nat) : String :=
  let count := table.rows.length
  let note := if limit < count then s!"\n({limit} of {count} rows)" else ""
  (table.grid limit).text ++ note

end TablePipeline.Table
