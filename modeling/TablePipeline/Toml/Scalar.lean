import TablePipeline.Number.Decimal
import TablePipeline.Toml.Text

/-! # Scalars in TOML

Texts, truth values, integers and doubles. Digits may be grouped by single underscores. Dates are
not read.
-/

namespace TablePipeline.Toml

/-- A value without parts. -/
inductive Scalar where
  | text (value : String)
  | bool (value : Bool)
  | int (value : Int64)
  | float (value : Float)

/-- Digits without the underscores between them: the text starts and ends with a digit, and no two
underscores meet. -/
def digits? (isDigit : Char → Bool) : List Char → Option (List Char)
  | [] => none
  | [digit] => if isDigit digit then some [digit] else none
  | digit :: '_' :: rest =>
    if isDigit digit then (digits? isDigit rest).map (digit :: ·) else none
  | digit :: rest => if isDigit digit then (digits? isDigit rest).map (digit :: ·) else none

/-- Decimal digits that do not start with a superfluous zero. -/
def decimal? (text : List Char) : Option (List Char) := do
  match ← digits? Char.isDigit text with
  | '0' :: _ :: _ => none
  | digits => some digits

/-- The number that digits of a base write. -/
def ofBase (base : Nat) (digits : List Char) : Option Nat := do
  let values ← digits.mapM hexValue?
  return values.foldl (fun number digit => base * number + digit) 0

/-- The magnitude of an integer with a mark of its base. -/
def marked? : List Char → Option Nat
  | '0' :: 'x' :: rest => do ofBase 16 (← digits? (fun char => (hexValue? char).isSome) rest)
  | '0' :: 'o' :: rest => do ofBase 8 (← digits? (fun char => '0' ≤ char ∧ char ≤ '7') rest)
  | '0' :: 'b' :: rest => do ofBase 2 (← digits? (fun char => char == '0' || char == '1') rest)
  | _ => none

/-- The integer of a sign and a magnitude. -/
def signed (negative : Bool) (magnitude : Nat) : Int :=
  if negative then -magnitude else magnitude

/-- The sign in front of a number. -/
def splitSign : List Char → Bool × List Char
  | '-' :: rest => (true, rest)
  | '+' :: rest => (false, rest)
  | text => (false, text)

/-- An integer. -/
def int? (text : List Char) : Option Int64 :=
  match marked? text with
  | some magnitude => Number.int64? magnitude
  | none => do
    let (negative, rest) := splitSign text
    Number.int64? (signed negative (Number.ofDigits (← decimal? rest)))

/-- The digits behind the mark of an exponent, with their sign. -/
def exponent? (text : List Char) : Option Int := do
  let (negative, rest) := splitSign text
  return signed negative (Number.ofDigits (← digits? Char.isDigit rest))

/-- The magnitude of a double with a fraction, an exponent or both. -/
def magnitude? (text : List Char) : Option Float := do
  let isMark (char : Char) : Bool := char == 'e' || char == 'E'
  let mantissa := text.takeWhile (!isMark ·)
  let whole ← decimal? (mantissa.takeWhile (· != '.'))
  let fraction ← match mantissa.dropWhile (· != '.') with
    | [] => some []
    | _ :: digits => digits? Char.isDigit digits
  let exponent ← match text.dropWhile (!isMark ·) with
    | [] => if mantissa.contains '.' then some 0 else none
    | _ :: digits => exponent? digits
  return Number.ofScientific (Number.ofDigits (whole ++ fraction)) (exponent - fraction.length)

/-- A double. A decimal that lies above all doubles is refused. -/
def float? (text : List Char) : Option Float := do
  let (negative, rest) := splitSign text
  let apply (value : Float) : Float := if negative then -value else value
  if rest = ['i', 'n', 'f'] then return apply (1.0 / 0.0)
  if rest = ['n', 'a', 'n'] then return 0.0 / 0.0
  let value := apply (← magnitude? rest)
  if value == 1.0 / 0.0 then none else return value

/-- May the character stand in a scalar without quotes? -/
def isScalarChar (char : Char) : Bool :=
  char.isAlphanum || char == '+' || char == '-' || char == '.' || char == '_' || char == ':'

/-- A scalar without quotes. -/
def bare? (text : List Char) : Option Scalar :=
  if text = ['t', 'r', 'u', 'e'] then some (.bool true)
  else if text = ['f', 'a', 'l', 's', 'e'] then some (.bool false)
  else
    match int? text with
    | some value => some (.int value)
    | none => (float? text).map Scalar.float

/-- A scalar at the start of a text. -/
def scalar (text : List Char) : Option (Scalar × List Char) :=
  match quotedText text with
  | some (value, rest) => some (.text (String.ofList value), rest)
  | none =>
    (bare? (text.takeWhile isScalarChar)).map fun value => (value, text.dropWhile isScalarChar)

end TablePipeline.Toml
