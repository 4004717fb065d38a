import StyleProps.Decimal.Shortest

/-!
# Layouts of decimal numbers

How the shortest digits of a floating-point number are written: with a decimal point alone, or with
one digit before the point and an exponent. A `Layout` holds the decisions, and `Layout.write`
carries them out.
-/

namespace StyleProps.Decimal

/-- The decisions by which a floating-point number is written. -/
structure Layout where
  /-- Which of two equally near digit strings is written. -/
  tie : Tie
  /-- For which decimal exponents of the leading digit a number is written without exponent. -/
  positional : Int → Bool
  /-- Whether a whole number that is written without exponent gets the fraction `.0`. -/
  wholeFraction : Bool
  /-- The texts of the infinite numbers, without sign, and of what is not a number. -/
  infinite : String
  notANumber : String

/-- Digits with the decimal point after the first `point` of them, filled up with zeros. -/
def withPoint (wholeFraction : Bool) (chars : List Char) (point : Int) : List Char :=
  if point ≤ 0 then '0' :: '.' :: (List.replicate (-point).toNat '0' ++ chars)
  else
    let before := point.toNat
    if chars.length ≤ before then
      let whole := chars ++ List.replicate (before - chars.length) '0'
      if wholeFraction then whole ++ ['.', '0'] else whole
    else chars.take before ++ '.' :: chars.drop before

/-- Digits with the decimal point after the first of them, and the exponent with its sign. -/
def withExponent (chars : List Char) (exponent : Int) : List Char :=
  let mantissa := match chars with
    | first :: second :: rest => first :: '.' :: second :: rest
    | short => short
  let sign := if exponent < 0 then '-' else '+'
  mantissa ++ 'e' :: sign :: digits exponent.natAbs

/-- The text of a floating-point number. -/
def Layout.write (layout : Layout) (x : Float) : List Char :=
  let signed (negative : Bool) (chars : List Char) := if negative then '-' :: chars else chars
  match partsOf x with
  | .notANumber => layout.notANumber.toList
  | .infinite negative => signed negative layout.infinite.toList
  | .finite negative magnitude =>
      let decimal := shortest layout.tie magnitude
      let chars := digits decimal.coefficient
      let point := if decimal.coefficient == 0 then 1 else chars.length + decimal.exponent
      signed negative <|
        if layout.positional (point - 1) then withPoint layout.wholeFraction chars point
        else withExponent chars (point - 1)

/-- The text of a number used as a style value: positional, and whole numbers without a point. -/
def plainText : Layout where
  tie := .up
  positional _ := true
  wholeFraction := false
  infinite := "inf"
  notANumber := "NaN"

/-- The shortest text of a number used as a style value. -/
def plain (x : Float) : String :=
  String.ofList (plainText.write x)

end StyleProps.Decimal
