import TablePipeline.Rows.Group
import TablePipeline.Rows.Order
import TablePipeline.Expr.Eval

/-! # Values of window functions

Rows are split by their partition columns and ordered inside each part; the function gives every row
a value that depends on its place there. The rows themselves stay where they are.
-/

namespace TablePipeline

/-- A window function whose argument is bound. -/
inductive BoundWindow where
  | rowNumber
  | rank
  | lead (argument : Expr Nat) (offset : Nat)
  | lag (argument : Expr Nat) (offset : Nat)

/-- A window function with its argument bound to a schema. -/
def WindowFunction.bind (schema : Schema) : WindowFunction → Except ChainError BoundWindow
  | rowNumber => .ok .rowNumber
  | rank => .ok .rank
  | lead argument offset => return .lead (← argument.bind schema) offset.toNat
  | lag argument offset => return .lag (← argument.bind schema) offset.toNat

/-- The ranks of ordered items from one place on: an item that ties with the one before it has its
rank, and any other one has its own place. -/
def ranksFrom (tied : α → α → Bool) (rank place : Nat) : List α → List Nat
  | [] => []
  | [_] => [rank]
  | item :: next :: rest =>
    rank :: ranksFrom tied (if tied item next then rank else place + 1) (place + 1) (next :: rest)

namespace BoundWindow

/-- A number as a cell. -/
def numberCell (number : Nat) : Cell :=
  .int (Int64.ofNat number)

/-- The values of the ordered rows of one part. -/
def values (keys : List (Nat × OrderKey)) (rows : List Row) : BoundWindow → List Cell
  | rowNumber => (List.range rows.length).map fun place => numberCell (place + 1)
  | rank => (ranksFrom (fun a b => Row.compare keys a b == .eq) 1 1 rows).map numberCell
  | lead argument offset =>
    (List.range rows.length).map fun place =>
      (rows[place + offset]?.map argument.eval).getD .null
  | lag argument offset =>
    (List.range rows.length).map fun place =>
      if offset ≤ place then (rows[place - offset]?.map argument.eval).getD .null else .null

/-- The value of each row, with the place of the row. -/
def placed (partition : List Nat) (keys : List (Nat × OrderKey)) (rows : List Row)
    (function : BoundWindow) : List (Nat × Cell) :=
  let numbered := rows.zipIdx
  (groupsOf (fun (row, _) => row.pick partition) numbered).flatMap fun group =>
    let ordered := sortRows keys (·.1) group
    (ordered.map (·.2)).zip (function.values keys (ordered.map (·.1)))

/-- The values of all rows, in the order of the rows. -/
def column (partition : List Nat) (keys : List (Nat × OrderKey)) (rows : List Row)
    (function : BoundWindow) : List Cell :=
  let placed := function.placed partition keys rows
  (List.range rows.length).map fun place => (placed.lookup place).getD .null

end BoundWindow

end TablePipeline
