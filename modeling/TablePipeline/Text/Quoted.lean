import TablePipeline.Text.Printable

/-! # Quoted text

There are two ways of putting a text between quotes. In the first one every character stands for
itself, except the quote, the backslash and the characters that do not print: those are written as
escapes, so that the quoted form fits one line and shows what it holds. In the second one all
characters stand for themselves, and a quote inside is written twice.
-/

namespace TablePipeline.Text

/-- The written form of one character between quotes. -/
def escape (c : Char) : List Char :=
  match c with
  | '\x00' => ['\\', '0']
  | '\t' => ['\\', 't']
  | '\n' => ['\\', 'n']
  | '\r' => ['\\', 'r']
  | '"' => ['\\', '"']
  | '\\' => ['\\', '\\']
  | _ =>
    if prints c then [c]
    else ['\\', 'u', '\x7b'] ++ Nat.toDigits 16 c.toNat ++ ['\x7d']

/-- A text between double quotes, on one line. -/
def quoted (text : String) : String :=
  String.ofList ('"' :: text.toList.flatMap escape ++ ['"'])

/-- The characters of a text, with a mark among them written twice. -/
def doubling (mark : Char) (text : List Char) : List Char :=
  text.flatMap fun char => if char = mark then [mark, mark] else [char]

/-- A text between two marks, with the marks inside written twice. -/
def enclosed (mark : Char) (text : String) : String :=
  String.ofList (mark :: doubling mark text.toList ++ [mark])

end TablePipeline.Text
