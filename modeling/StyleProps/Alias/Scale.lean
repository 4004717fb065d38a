import StyleProps.Decimal.Digits
import StyleProps.Table

/-!
# Length scales

Symbolic lengths that many aliases share: the spacing scale, whose steps are quarters of a rem, and
the fractions, which are percentages.
-/

namespace StyleProps.Scale

/-- The steps of the spacing scale, in halves. -/
def halfSteps : List Nat :=
  [1, 2, 3, 4, 5, 6, 7, 8, 10, 12, 14, 16, 18, 20, 22, 24, 28, 32, 40, 48, 56, 64, 72, 80, 88, 96,
   104, 112, 120, 128, 144, 160, 192]

/-- The spacing scale: zero, one pixel, and the steps in quarters of a rem. -/
def rem : Table String :=
  Table.ofList <|
    [("0", "0"), ("px", "1px")] ++
      halfSteps.map fun n => (Decimal.trimmed (5 * n) 1, Decimal.trimmed (125 * n) 3 ++ "rem")

/-- The denominators of the fractions. -/
def denominators : List Nat := [2, 3, 4, 5, 6, 12]

/-- A fraction as a percentage, with no more than six decimals. -/
def percentage (numerator denominator : Nat) : String :=
  Decimal.trimmed (Decimal.roundDiv (numerator * Nat.pow 10 8) denominator) 6 ++ "%"

/-- The proper fractions of each denominator as percentages, and the whole. -/
def fraction : Table String :=
  Table.ofList <|
    denominators.flatMap (fun d =>
      (List.range' 1 (d - 1)).map fun n =>
        (toString n ++ "/" ++ toString d, percentage n d)) ++
      [("full", "100%")]

end StyleProps.Scale
