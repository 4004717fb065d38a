/-!
# Decimals as floating-point numbers

The floating-point number of `significand * 10 ^ exponent`, computed in floating-point arithmetic:
the significand is rounded once, and multiplied or divided by a rounded power of ten. The last bit
can therefore differ from that of the nearest floating-point number.
-/

namespace StyleProps.Decimal

/-- The greatest power of ten that is a finite floating-point number. -/
def maxPower : Nat := 308

/-- Ten to the given power, rounded to the nearest floating-point number. -/
def power (exponent : Nat) : Float :=
  Float.ofScientific 1 false exponent

/-- The floating-point number of `significand * 10 ^ exponent`, or `none` if it is too great. Powers
below the least one that is available are divided out in two steps. -/
def scaled? (significand : Nat) (exponent : Int) : Option Float :=
  let x := Float.ofNat significand
  if 0 ≤ exponent then
    if exponent.toNat ≤ maxPower then
      let scaled := x * power exponent.toNat
      if scaled.isInf then none else some scaled
    else if significand = 0 then some x
    else none
  else
    let down := (-exponent).toNat
    if down ≤ maxPower then some (x / power down)
    else if down ≤ 2 * maxPower then some (x / power maxPower / power (down - maxPower))
    else some 0

end StyleProps.Decimal
