import TablePipeline.Chain.Basic

/-! # Joins of rows

A row of the left side is joined with the rows of the right side that have its key. The key of a
row is made of the values of its key columns; where the two sides have different types of number,
both are taken as doubles. A row with a null in its key has no partner. The rows of the right side are
put into an index by their keys first, so that they are gone through once.
-/

namespace TablePipeline

/-- A column of a join key. -/
structure JoinKeyColumn where
  left : Nat
  right : Nat
  /-- Are the values of both sides taken as doubles? -/
  widened : Bool

namespace Row

/-- One value of a key. -/
def keyCell (widened : Bool) : Cell → Option Cell
  | .null => none
  | cell => if widened then cell.asFloat?.map Cell.float else some cell

/-- The key of a row, unless a part of it is missing. -/
def joinKey (columns : List (Nat × Bool)) (row : Row) : Option Row :=
  columns.mapM fun (position, widened) => keyCell widened (row.cell position)

/-- The row of a join. Without a partner on the right, its columns are null. -/
def joined (layout : List JoinColumn) (left : Row) (right : Option Row) : Row :=
  layout.map fun entry =>
    match entry.side with
    | .left => left.cell entry.index
    | .right => (right.map (cell · entry.index)).getD .null

end Row

/-- The items of the right side under the keys of their rows, those of one key in their order. Keys that
are the same share an entry, and a row without a key is in none. -/
def joinIndex (cells : α → Row) (columns : List JoinKeyColumn) (right : List α) :
    Dictionary Row (List α) :=
  right.foldl (fun index item =>
    match (cells item).joinKey (columns.map fun column => (column.right, column.widened)) with
    | none => index
    | some key =>
      let entry := key.map Cell.canonical
      index.insert entry ((index.find? entry).getD [] ++ [item])) {}

/-- The entry of an index for a row of the left side. -/
def joinLookup? (index : Dictionary Row (List α)) (columns : List JoinKeyColumn) (row : Row) :
    Option (List α) :=
  (row.joinKey (columns.map fun column => (column.left, column.widened))).bind fun key =>
    index.find? (key.map Cell.canonical)

/-- The items that a join brings together, in the order of the left ones and then of the right ones.
An item of the left side that is kept without a partner has none. -/
def joinPairs (cells : α → Row) (kind : JoinKind) (columns : List JoinKeyColumn)
    (left right : List α) : List (α × Option α) :=
  let index := joinIndex cells columns right
  left.flatMap fun item =>
    match joinLookup? index columns (cells item), kind with
    | some partners, _ => partners.map fun partner => (item, some partner)
    | none, .left => [(item, none)]
    | none, .inner => []

/-- The rows of a join. -/
def joinRows (kind : JoinKind) (columns : List JoinKeyColumn) (layout : List JoinColumn)
    (left right : List Row) : List Row :=
  (joinPairs id kind columns left right).map fun (row, partner) => row.joined layout partner

end TablePipeline
