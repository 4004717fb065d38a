import StyleProps.Decimal.Digits

/-!
# Shortest decimals

The decimal number with the fewest digits that reads back to a given floating-point number, and of
those the nearest one.

A finite number is taken apart into a sign and `m * 2 ^ q`. The real numbers that round to it form
an interval, with its ends included exactly when `m` is even. For one digit, two digits and so on,
the two neighbours of the number on the grid of that many digits are tried; the first grid with a
neighbour inside the interval gives the answer. If a grid has any point inside the interval, then
one of the two neighbours is inside it, so no shorter decimal reads back.
-/

namespace StyleProps.Decimal

/-- The decimal number `coefficient * 10 ^ exponent`. -/
structure Scientific where
  coefficient : Nat
  exponent : Int
deriving Repr, DecidableEq

/-- Which of two equally near decimals is taken. -/
inductive Tie where
  /-- The one whose last digit is even. -/
  | even
  /-- The greater one. -/
  | up
deriving Repr, DecidableEq

/-- The binary number `mantissa * 2 ^ exponent`; `narrowBelow` tells that the next smaller number is
only half as far away as the next greater one. -/
structure Binary where
  mantissa : Nat
  exponent : Int
  narrowBelow : Bool

/-- A floating-point number, taken apart. -/
inductive Parts where
  | finite (negative : Bool) (magnitude : Binary)
  | infinite (negative : Bool)
  | notANumber

/-- Takes a floating-point number apart by its bits: one for the sign, eleven for the exponent and
fifty-two for the fraction. -/
def partsOf (x : Float) : Parts :=
  let bits : Nat := x.toBits.toNat
  let negative := bits / Nat.pow 2 63 == 1
  let biased : Nat := bits / Nat.pow 2 52 % Nat.pow 2 11
  let fraction : Nat := bits % Nat.pow 2 52
  if biased == 2047 then
    if fraction == 0 then .infinite negative else .notANumber
  else if biased == 0 then
    .finite negative ⟨fraction, -1074, false⟩
  else
    .finite negative ⟨Nat.pow 2 52 + fraction, (biased : Int) - 1075, fraction == 0 && biased != 1⟩

/-- The exponents `k` with `10 ^ (k - 1) ≤ numerator / denominator < 10 ^ k`, for a quotient that is
at least one or is no power of ten. -/
def magnitude (numerator denominator : Nat) : Int :=
  if denominator ≤ numerator then ((digits (numerator / denominator)).length : Int)
  else 1 - ((digits (denominator / numerator)).length : Int)

/-- Takes zeros at the end of the coefficient into the exponent. -/
def Scientific.normalize (fuel : Nat) (x : Scientific) : Scientific :=
  match fuel with
  | 0 => x
  | fuel + 1 =>
      if x.coefficient % 10 == 0 then normalize fuel ⟨x.coefficient / 10, x.exponent + 1⟩ else x

/-- The neighbour of `value / unit` on the grid of the multiples of ten to the power `exponent` that
lies between `low / unit` and `high / unit`: the nearer one if both do. -/
def neighbour? (tie : Tie) (inclusive : Bool) (low value high unit : Nat) (exponent : Int) :
    Option Nat :=
  let up := Nat.pow 10 (-exponent).toNat
  let down := unit * Nat.pow 10 exponent.toNat
  let below := value * up / down
  let above := below + 1
  let inside (n : Nat) : Bool :=
    if inclusive then low * up ≤ n * down && n * down ≤ high * up
    else low * up < n * down && n * down < high * up
  match below != 0 && inside below, inside above with
  | false, false => none
  | true, false => some below
  | false, true => some above
  | true, true =>
      let toBelow := value * up - below * down
      let toAbove := above * down - value * up
      if toBelow < toAbove then some below
      else if toAbove < toBelow then some above
      else match tie with
        | .even => some (if below % 2 == 0 then below else above)
        | .up => some above

/-- The shortest decimal with at least `count` digits, tried for `fuel` lengths. -/
def shortestFrom (tie : Tie) (inclusive : Bool) (low value high unit : Nat) (top : Int) :
    (fuel count : Nat) → Scientific
  | 0, _ => ⟨0, 0⟩
  | fuel + 1, count =>
      let exponent := top - count
      match neighbour? tie inclusive low value high unit exponent with
      | some n => Scientific.normalize 18 ⟨n, exponent⟩
      | none => shortestFrom tie inclusive low value high unit top fuel (count + 1)

/-- The decimal with the fewest digits that reads back to a positive binary number, the nearest one
of those, and of two equally near ones the one that `tie` names. Seventeen digits always suffice. -/
def shortest (tie : Tie) (x : Binary) : Scientific :=
  if x.mantissa == 0 then ⟨0, 0⟩
  else
    -- The half-way points to the neighbouring numbers are whole multiples of a quarter of a unit.
    let scale := Nat.pow 2 (x.exponent - 2).toNat
    let unit := Nat.pow 2 (2 - x.exponent).toNat
    let value := 4 * x.mantissa * scale
    let high := (4 * x.mantissa + 2) * scale
    let low := (4 * x.mantissa - (if x.narrowBelow then 1 else 2)) * scale
    shortestFrom tie (x.mantissa % 2 == 0) low value high unit (magnitude value unit) 17 1

end StyleProps.Decimal
