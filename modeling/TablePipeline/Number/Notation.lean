import TablePipeline.Number.Shortest

/-! # The written forms of a double

A double is written with the fewest digits that read back. A `Style` fixes what is left to decide:
whether a point and a zero follow an integral value, and which magnitudes are written with an
exponent. Cells are printed in the `plain` style, literals inside expressions and statements in the
`literal` style.
-/

namespace TablePipeline.Number

/-- The decisions of a written form. -/
structure Style where
  /-- Is `.0` written after an integral value? -/
  pointZero : Bool
  /-- The decimal exponents, first and last, that are written without an exponent mark; all of them
  if there is no such range. -/
  positional : Option (Int × Int)

/-- The written form of a cell: all digits in place, and no point after an integral value. -/
def Style.plain : Style := ⟨false, none⟩

/-- The written form of a literal: positional from `1e-4` and below `1e16`, and never without
either a point or an exponent. -/
def Style.literal : Style := ⟨true, some (-4, 15)⟩

/-- The decimal digits of a number. -/
def digitText (digits : Nat) : List Char :=
  Nat.toDigits 10 digits

/-- The digits as text with their trailing zeros removed, and the decimal exponent of the first. -/
def Decimal.significand (decimal : Decimal) : List Char × Int :=
  let text := digitText decimal.digits
  let kept := (text.reverse.dropWhile (· == '0')).reverse
  (if kept.isEmpty then ['0'] else kept, decimal.exponent + (text.length - 1))

/-- All digits in place, around the point. -/
def positionalText (pointZero : Bool) (digits : List Char) (exponent : Int) : List Char :=
  if exponent < 0 then
    '0' :: '.' :: List.replicate (-exponent - 1).toNat '0' ++ digits
  else
    let whole := exponent.toNat + 1
    let padded := digits ++ List.replicate (whole - digits.length) '0'
    let fraction := padded.drop whole
    padded.take whole ++
      (if fraction.isEmpty then (if pointZero then ['.', '0'] else []) else '.' :: fraction)

/-- One digit, the others behind a point, and the exponent behind an `e`. -/
def exponentText (digits : List Char) (exponent : Int) : List Char :=
  let fraction := digits.drop 1
  digits.take 1 ++ (if fraction.isEmpty then [] else '.' :: fraction) ++
    'e' :: (toString exponent).toList

/-- The text of a positive finite double. -/
def magnitudeText (style : Style) (mantissa : Nat) (exponent : Int) : List Char :=
  let (digits, decade) := (shortest mantissa exponent).significand
  match style.positional with
  | none => positionalText style.pointZero digits decade
  | some (first, last) =>
    if first ≤ decade ∧ decade ≤ last then positionalText style.pointZero digits decade
    else exponentText digits decade

/-- The text of a double. -/
def text (style : Style) (value : Float) : String :=
  let minus : Float.Model.UnpackedFloat.Sign → List Char
    | .positive => []
    | .negative => ['-']
  match value.toModel.unpack with
  | .notANumber => "NaN"
  | .infinity sign => String.ofList (minus sign ++ "inf".toList)
  | .zero sign => String.ofList (minus sign ++ (if style.pointZero then "0.0" else "0").toList)
  | .finite sign mantissa exponent _ =>
    String.ofList (minus sign ++ magnitudeText style mantissa exponent)

end TablePipeline.Number
