import TablePipeline.Cell.Basic
import TablePipeline.Number.Notation
import TablePipeline.Text.Quoted

/-! # Written cells

A cell is written in two ways. `display` is its bare value, as shown to a reader. `noted` also shows
its kind and keeps text between quotes, so that it fits one line of a note.
-/

namespace TablePipeline.Cell

/-- The bare value. -/
def display : Cell → String
  | null => "NULL"
  | bool value => if value then "true" else "false"
  | int value => toString value.toInt
  | float value => Number.text .plain value
  | text value => value

/-- The value with its kind. -/
def noted : Cell → String
  | null => "Null"
  | bool value => "Bool(" ++ (if value then "true" else "false") ++ ")"
  | int value => "I64(" ++ toString value.toInt ++ ")"
  | float value => "F64(" ++ Number.text .literal value ++ ")"
  | text value => "Str(" ++ Text.quoted value ++ ")"

end TablePipeline.Cell
