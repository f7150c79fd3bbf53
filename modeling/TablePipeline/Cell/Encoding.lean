import TablePipeline.Cell.Basic
import TablePipeline.Digest

/-! # Encoded cells

The bytes that stand for a cell where content is hashed. Cells that are the same have the same
bytes.
-/

namespace TablePipeline.Cell

/-- The bytes of a canonical cell: a mark of its type, then its value. -/
def encodeCanonical : Cell → Bytes
  | null => [0]
  | bool value => [CellType.bool.mark, if value then 1 else 0]
  | int value => CellType.int.mark :: Bytes.word value.toUInt64.toNat
  | float value => CellType.float.mark :: Bytes.word value.toBits.toNat
  | text value => CellType.text.mark :: Bytes.counted (Bytes.ofText value)

/-- The bytes of a cell. -/
def encode (cell : Cell) : Bytes :=
  cell.canonical.encodeCanonical

end TablePipeline.Cell
