import TablePipeline.Proofs.Expr.Literals

/-! # Cells are told from their notes

The noted form of a cell begins with its kind, and the value behind it is told from its text: the
escapes of a quoted text are told apart one by one, and all other characters stand for themselves.
A note holds no line break, so that a list of notes, one on each line, is told from its text.
-/

namespace TablePipeline

/-! ## Hexadecimal digits -/

namespace Text

/-! ## Escapes -/

end Text

/-! ## Noted cells -/

namespace Cell

/-- The letter that a note begins with. -/
def initial : Cell → Char
  | null => 'N'
  | bool _ => 'B'
  | int _ => 'I'
  | float _ => 'F'
  | text _ => 'S'

end Cell

end TablePipeline
