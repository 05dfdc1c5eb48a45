import StepCode.Decimal.Binary

/-!
# Shortest decimals

The fewest digits that still read back as a given value.  Grids of ever finer decimals are tried,
and on each one the two points next to the value; the first grid with a point that rounds to the
value wins, the nearer of two points is taken, and an exact tie goes as the format says.
-/

namespace StepCode.Decimal

/-- Which of two equally near decimals is written. -/
inductive Tie where
  | toEven
  | upward
deriving DecidableEq, Repr

/-- The least `k` with `value < 10 ^ k`, for a value other than zero.  The binary logarithm gives it
up to three; exact comparisons settle it. -/
def magnitude (value : Binary) : Int :=
  let estimate := ((value.significand.log2 : Int) + value.exponent) * 30103 / 100000
  let isAbove (k : Int) : Bool := compareScaled 1 k value.significand value.exponent == .gt
  if isAbove estimate then estimate
  else if isAbove (estimate + 1) then estimate + 1
  else if isAbove (estimate + 2) then estimate + 2
  else estimate + 3

/-- The largest `n` with `n * 10 ^ grid ≤ value`. -/
def floorOnGrid (value : Binary) (grid : Int) : Nat :=
  (value.significand * Nat.pow 2 value.exponent.toNat * Nat.pow 10 (-grid).toNat) /
    (Nat.pow 2 (-value.exponent).toNat * Nat.pow 10 grid.toNat)

/-- The better of the two grid points around the value, if one of them rounds to it. -/
def nearestOnGrid (tie : Tie) (value : Binary) (grid : Int) : Option Nat :=
  let below := floorOnGrid value grid
  let above := below + 1
  match value.roundsFrom ⟨below, grid⟩, value.roundsFrom ⟨above, grid⟩ with
  | true, false => some below
  | false, true => some above
  | false, false => none
  | true, true =>
      match compareScaled (below + above) grid value.significand (value.exponent + 1) with
      | .gt => some below
      | .lt => some above
      | .eq =>
          match tie with
          | .upward => some above
          | .toEven => if below % 2 = 0 then some below else some above

/-- Try the grids with `digits`, `digits + 1`, … digits before the point `10 ^ top`. -/
def searchGrids (tie : Tie) (value : Binary) (top : Int) : (tries digits : Nat) → Option Digits
  | 0, _ => none
  | tries + 1, digits =>
      let grid := top - digits
      match nearestOnGrid tie value grid with
      | some point => some ⟨point, grid⟩
      | none => searchGrids tie value top tries (digits + 1)

/-- The decimal that equals the value exactly. -/
def exact (value : Binary) : Digits :=
  ⟨value.significand * Nat.pow 2 value.exponent.toNat * Nat.pow 5 (-value.exponent).toNat,
    min value.exponent 0⟩

/-- Move trailing zeros of the digits into the exponent; `fuel` bounds their number. -/
def stripZeros : (fuel : Nat) → Digits → Digits
  | 0, decimal => decimal
  | fuel + 1, decimal =>
      if decimal.digits ≠ 0 ∧ decimal.digits % 10 = 0 then
        stripZeros fuel ⟨decimal.digits / 10, decimal.exponent + 1⟩
      else decimal

/-- The shortest decimal that reads back as `value`; seventeen digits always suffice. -/
def shortest (tie : Tie) (value : Binary) : Digits :=
  if value.significand = 0 then ⟨0, 0⟩
  else
    let found := (searchGrids tie value (magnitude value) 17 1).getD (exact value)
    stripZeros (found.digits.log2 + 1) found

end StepCode.Decimal
