/-!
# Binary values

A finite 64-bit floating-point value is a natural number times a power of two.  This module reads
that pair off the bits and states which decimals stand for the value: those in the interval of reals
that round to it.
-/

namespace StepCode.Decimal

/-- The magnitude `significand * 2 ^ exponent` of a finite value. -/
structure Binary where
  significand : Nat
  exponent : Int
  /-- The value below is half as far away as the value above. -/
  narrowBelow : Bool
deriving DecidableEq, Repr

/-- The magnitude with these bits.  Infinities and NaN are no magnitudes: test for them first. -/
def Binary.ofBits (bits : UInt64) : Binary :=
  let exponent : Nat := (bits.toNat / Nat.pow 2 52) % Nat.pow 2 11
  let fraction : Nat := bits.toNat % Nat.pow 2 52
  if exponent = 0 then ⟨fraction, -1074, false⟩
  else ⟨Nat.pow 2 52 + fraction, (exponent : Int) - 1075, fraction == 0 && exponent > 1⟩

/-- The decimal `digits * 10 ^ exponent`. -/
structure Digits where
  digits : Nat
  exponent : Int
deriving DecidableEq, Repr

/-- Compare `a * 10 ^ i` with `b * 2 ^ j` exactly. -/
def compareScaled (a : Nat) (i : Int) (b : Nat) (j : Int) : Ordering :=
  compare (a * Nat.pow 10 i.toNat * Nat.pow 2 (-j).toNat)
    (b * Nat.pow 2 j.toNat * Nat.pow 10 (-i).toNat)

/-- Whether `decimal` lies among the reals that round to `value`.  The ends of the interval are
halfway to the neighbours; they belong to it when the significand is even. -/
def Binary.roundsFrom (value : Binary) (decimal : Digits) : Bool :=
  let low := if value.narrowBelow then 4 * value.significand - 1 else 4 * value.significand - 2
  let high := 4 * value.significand + 2
  let closed := value.significand % 2 == 0
  let lower := compareScaled decimal.digits decimal.exponent low (value.exponent - 2)
  let upper := compareScaled decimal.digits decimal.exponent high (value.exponent - 2)
  (lower == .gt || (closed && lower == .eq)) && (upper == .lt || (closed && upper == .eq))

end StepCode.Decimal
