import StepCode.Decimal.Reading
import StepCode.Decimal.Style

/-!
# Numbers

The floating-point operations that blocks and step code share, and the text of a number.  Infinite
numbers and NaN have names of their own in each place that writes them.
-/

namespace StepCode.Number

def infinity : Float := 1.0 / 0.0

def nan : Float := 0.0 / 0.0

/-- The style of block values and step code: positional notation with the fewest digits. -/
def plain : Decimal.Style where
  exponents := .never
  pointZero := false
  tie := .upward

/-- The text of a finite number. -/
def text (x : Float) : String := plain.text x

/-- The greatest whole number that is not above `x`.  The significand is cut off at the point; a
negative number that had a fraction goes down by one. -/
def floor (x : Float) : Float :=
  if x.isNaN || x.isInf || x == 0.0 then x
  else
    let value := Decimal.Binary.ofBits x.toBits
    let unit := Nat.pow 2 (-value.exponent).toNat
    if 0 ≤ value.exponent then x
    else if Decimal.isNegative x then -Float.ofNat ((value.significand + (unit - 1)) / unit)
    else Float.ofNat (value.significand / unit)

/-- A half goes up, also below zero. -/
def roundHalfUp (x : Float) : Float := floor (x + 0.5)

/-- The integer part, cut off at the ends of the 64-bit range; NaN gives zero. -/
def toInteger (x : Float) : Int := x.toInt64.toInt

/-- The magnitude `digits * 2 ^ exponent`, as a number. -/
def ofScaled (digits : Nat) (exponent : Int) : Float :=
  (Float.ofNat digits).scaleB exponent

/-- The remainder of the division truncated toward zero.  It is exact: the significands are brought
to one exponent and divided as natural numbers.  It has the sign of the dividend. -/
def remainder (x y : Float) : Float :=
  if x.isNaN || y.isNaN || x.isInf || y == 0.0 then nan
  else if y.isInf || x == 0.0 then x
  else
    let a := Decimal.Binary.ofBits x.toBits
    let b := Decimal.Binary.ofBits y.toBits
    let exponent := min a.exponent b.exponent
    let rest := (a.significand * Nat.pow 2 (a.exponent - exponent).toNat) %
      (b.significand * Nat.pow 2 (b.exponent - exponent).toNat)
    let magnitude := ofScaled rest exponent
    if Decimal.isNegative x then -magnitude else magnitude

/-- The order of two numbers; NaN is ordered with nothing. -/
def order? (x y : Float) : Option Ordering :=
  if x < y then some .lt
  else if x == y then some .eq
  else if x > y then some .gt
  else none

end StepCode.Number
