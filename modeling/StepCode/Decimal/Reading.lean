/-!
# Reading decimals

Number text: an optional sign, digits with an optional point, an optional exponent.  At least one
digit stands before the exponent.  The names `inf`, `infinity` and `nan` are numbers too, whatever
the case of their letters.  The value is the nearest 64-bit floating-point number.
-/

namespace StepCode.Decimal

/-- The value of a run of digits, most significant first. -/
def digitsValue (digits : List Char) : Nat :=
  digits.foldl (fun value c => 10 * value + (c.toNat - '0'.toNat)) 0

/-- Beyond this exponent every number with a digit before the point is infinite. -/
def exponentLimit : Int := 400

/-- The floating-point number nearest to `digits * 10 ^ exponent`.  An exponent far out of range
settles the answer without computing the power. -/
def nearest (digits : Nat) (exponent : Int) : Float :=
  let size : Int := (digits.log2 : Int) * 30103 / 100000
  if digits = 0 then 0.0
  else if exponent + size > exponentLimit then 1.0 / 0.0
  else if exponent + size < -exponentLimit then 0.0
  else Float.ofScientific digits (exponent < 0) exponent.natAbs

/-- Split off a sign; the flag says whether it is a minus. -/
def splitSign : List Char → Bool × List Char
  | '-' :: rest => (true, rest)
  | '+' :: rest => (false, rest)
  | chars => (false, chars)

/-- The exponent of a decimal: absent, or a mark, an optional sign and digits up to the end. -/
def readExponent : List Char → Option Int
  | [] => some 0
  | mark :: rest =>
      let (minus, digits) := splitSign rest
      if (mark = 'e' ∨ mark = 'E') ∧ digits ≠ [] ∧ digits.all Char.isDigit then
        some (if minus then -(digitsValue digits : Int) else digitsValue digits)
      else none

/-- A decimal without sign as `digits * 10 ^ exponent`. -/
def readMagnitude (chars : List Char) : Option (Nat × Int) :=
  let whole := chars.takeWhile Char.isDigit
  let (fraction, rest) :=
    match chars.dropWhile Char.isDigit with
    | '.' :: tail => (tail.takeWhile Char.isDigit, tail.dropWhile Char.isDigit)
    | tail => ([], tail)
  if whole = [] ∧ fraction = [] then none
  else (readExponent rest).map fun exponent =>
    (digitsValue (whole ++ fraction), exponent - fraction.length)

/-- The numbers that have a name. -/
def readName (chars : List Char) : Option Float :=
  match String.ofList (chars.map Char.toLower) with
  | "inf" => some (1.0 / 0.0)
  | "infinity" => some (1.0 / 0.0)
  | "nan" => some (0.0 / 0.0)
  | _ => none

/-- Read a whole text as a number. -/
def read? (chars : List Char) : Option Float :=
  let (minus, rest) := splitSign chars
  let magnitude :=
    match readMagnitude rest with
    | some (digits, exponent) => some (nearest digits exponent)
    | none => readName rest
  magnitude.map fun x => if minus then -x else x

end StepCode.Decimal
