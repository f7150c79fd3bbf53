import TablePipeline.Expr.Basic

/-! # Orders of rows

Rows are compared key by key; the first key that tells two rows apart decides. The direction of a
key applies to values, while nulls go to the end that the key names in both directions. Cells that
cannot be compared tie.
-/

namespace TablePipeline

/-- The order of two cells under a key. -/
def OrderKey.compare (key : OrderKey) (a b : Cell) : Ordering :=
  match a.isNull, b.isNull with
  | true, true => .eq
  | true, false => if key.nulls = .first then .lt else .gt
  | false, true => if key.nulls = .first then .gt else .lt
  | false, false =>
    let order := (a.order? b).getD .eq
    if key.descending then order.swap else order

namespace Row

/-- The order of two rows under keys, each with the position of its column. -/
def compare : List (Nat × OrderKey) → Row → Row → Ordering
  | [], _, _ => .eq
  | (position, key) :: rest, a, b =>
    (key.compare (a.cell position) (b.cell position)).then (compare rest a b)

end Row

/-- The items in the order of their rows. Items whose rows tie keep their order. -/
def sortRows (keys : List (Nat × OrderKey)) (row : α → Row) (items : List α) : List α :=
  items.mergeSort fun a b => Row.compare keys (row a) (row b) != .gt

end TablePipeline
