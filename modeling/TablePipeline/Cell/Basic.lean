import TablePipeline.Number.Position

/-! # Cells

A cell is one value of a table: null, a truth value, a 64-bit integer, a double or a text. Two
relations live on cells. `same` groups cells: it is an equivalence in which null is the same as
null, both zeros are the same and so are all NaNs, but an integer is never the same as a double.
`order?` compares cells: it is undefined on null and between kinds, except that integers and
doubles compare by their exact value.
-/

namespace TablePipeline

/-- The type of a column. -/
inductive CellType where
  | bool
  | int
  | float
  | text
deriving DecidableEq, Repr

namespace CellType

/-- All types, in order. -/
def all : List CellType := [bool, int, float, text]

/-- The written name of a type. -/
def name : CellType → String
  | bool => "bool"
  | int => "i64"
  | float => "f64"
  | text => "str"

/-- The type of a name. -/
def ofName? (name : String) : Option CellType :=
  all.find? (·.name = name)

/-- Is this a type of numbers? -/
def isNumeric : CellType → Bool
  | int | float => true
  | bool | text => false

/-- The type of numbers that holds the values of both: doubles as soon as one side has them. -/
def widest? : CellType → CellType → Option CellType
  | int, int => some int
  | int, float | float, int | float, float => some float
  | _, _ => none

/-- The byte that marks a value of this type; zero marks null. -/
def mark : CellType → UInt8
  | bool => 1
  | int => 2
  | float => 3
  | text => 4

end CellType

/-- One value of a table. -/
inductive Cell where
  | null
  | bool (value : Bool)
  | int (value : Int64)
  | float (value : Float)
  | text (value : String)
deriving DecidableEq

namespace Cell

instance : Inhabited Cell := ⟨null⟩

/-- Is the cell empty? -/
def isNull : Cell → Bool
  | null => true
  | _ => false

/-- The type of a cell that is not null. -/
def type? : Cell → Option CellType
  | null => none
  | bool _ => some .bool
  | int _ => some .int
  | float _ => some .float
  | text _ => some .text

/-- The truth value of a cell that holds one. -/
def asBool? : Cell → Option Bool
  | bool value => some value
  | _ => none

/-- The integer of a cell that holds one. -/
def asInt? : Cell → Option Int64
  | int value => some value
  | _ => none

/-- The number of a cell that holds one, as a double. -/
def asFloat? : Cell → Option Float
  | int value => some (Number.toFloat value)
  | float value => some value
  | _ => none

/-- The text of a cell that holds one. -/
def asText? : Cell → Option String
  | text value => some value
  | _ => none

/-- The cell as a value of a type, if nothing is lost: truth values pass for integers and integers
for truth values, integers for doubles, and doubles that are 64-bit integers for those. -/
def coerce? : Cell → CellType → Option Cell
  | null, _ => some null
  | bool value, .bool => some (bool value)
  | int value, .int => some (int value)
  | float value, .float => some (float value)
  | text value, .text => some (text value)
  | int value, .bool => some (bool (value != 0))
  | int value, .float => some (float (Number.toFloat value))
  | float value, .int => (Number.exactInt? value).bind fun whole => (Number.int64? whole).map int
  | bool value, .int => some (int (if value then 1 else 0))
  | _, _ => none

/-- The representative of the cells that are the same as this one. -/
def canonical : Cell → Cell
  | float value => float (Number.canonical value)
  | cell => cell

/-- Do two cells fall into one group? -/
def same (a b : Cell) : Bool :=
  a.canonical = b.canonical

/-- The order of two cells that are not null, of one kind or both numbers. -/
def order? : Cell → Cell → Option Ordering
  | bool a, bool b => some (compare a b)
  | int a, int b => some (compare a.toInt b.toInt)
  | text a, text b => some (compare a b)
  | float a, float b => some ((Number.ofFloat a).order (Number.ofFloat b))
  | int a, float b => some ((Number.ofInt a.toInt).order (Number.ofFloat b))
  | float a, int b => some ((Number.ofFloat a).order (Number.ofInt b.toInt))
  | _, _ => none

end Cell

/-- The values of one row, in column order. -/
abbrev Row := List Cell

namespace Row

/-- The value in a column; null where a row has no such column. -/
def cell (row : Row) (column : Nat) : Cell :=
  row[column]?.getD .null

/-- The values in some columns. -/
def pick (row : Row) (columns : List Nat) : Row :=
  columns.map row.cell

/-- Do two rows fall into one group, column by column? -/
def same (a b : Row) : Bool :=
  a.map Cell.canonical = b.map Cell.canonical

end Row

end TablePipeline
