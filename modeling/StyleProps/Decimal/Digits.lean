/-!
# Decimal digits

Natural numbers as digit texts. `digits` writes a number without leading zeros, and `trimmed` writes
a number of tenths, hundredths and so on without trailing zeros.
-/

namespace StyleProps.Decimal

/-- Whether a character is one of the ten ASCII digits. -/
def isDigit (c : Char) : Bool :=
  '0' ≤ c && c ≤ '9'

/-- The value of a digit character. -/
def digitValue (c : Char) : Nat :=
  c.toNat - '0'.toNat

/-- The value of a run of digit characters, the first one leading. -/
def value (chars : List Char) : Nat :=
  chars.foldl (fun n c => 10 * n + digitValue c) 0

/-- The digits of a number, without leading zeros; zero is `0`. -/
def digits (n : Nat) : List Char :=
  Nat.toDigits 10 n

/-- The digits of an integer, after a minus sign if it is negative. -/
def signedDigits : Int → List Char
  | .ofNat n => digits n
  | .negSucc n => '-' :: digits (n + 1)

/-- The quotient of two numbers rounded to the nearest number, a half rounded up. -/
def roundDiv (numerator denominator : Nat) : Nat :=
  (2 * numerator + denominator) / (2 * denominator)

/-- The characters without those at the end that equal a given one. -/
def dropTrailing (c : Char) (chars : List Char) : List Char :=
  (chars.reverse.dropWhile (· == c)).reverse

/-- The number `n / 10 ^ places` as text: the zeros at the end of its fraction are left out, and
the point with them if no fraction is left. -/
def trimmed (n places : Nat) : String :=
  let whole := digits (n / Nat.pow 10 places)
  let fraction := digits (n % Nat.pow 10 places)
  let fraction := dropTrailing '0' (List.replicate (places - fraction.length) '0' ++ fraction)
  String.ofList (if fraction.isEmpty then whole else whole ++ '.' :: fraction)

end StyleProps.Decimal
