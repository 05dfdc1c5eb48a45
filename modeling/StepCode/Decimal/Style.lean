import StepCode.Decimal.Shortest

/-!
# Decimal text

How the digits of a number are laid out.  The decisions of a format are a `Style`; values that are
not finite have no decimal text and are left to the format that writes them.
-/

namespace StepCode.Decimal

/-- When a number is written with an exponent. -/
inductive Exponents where
  /-- Never: zeros fill the places. -/
  | never
  /-- When the leading digit stands outside the places `first` to `last`; the exponent is written
  with its sign. -/
  | outside (first last : Int)
deriving DecidableEq, Repr

/-- The decisions of a number format. -/
structure Style where
  exponents : Exponents
  /-- Write `.0` after a number without fraction that is written without exponent. -/
  pointZero : Bool
  tie : Tie
deriving DecidableEq, Repr

/-- The decimal digits of a natural number, most significant first. -/
def digitChars (n : Nat) : List Char :=
  Nat.toDigits 10 n

def zeros (count : Nat) : List Char :=
  List.replicate count '0'

/-- Positional notation: the point stands after, inside or before the digits. -/
def positional (pointZero : Bool) (decimal : Digits) : List Char :=
  let digits := digitChars decimal.digits
  if 0 ≤ decimal.exponent then
    digits ++ zeros decimal.exponent.toNat ++ (if pointZero then ['.', '0'] else [])
  else
    let places := (-decimal.exponent).toNat
    if places < digits.length then
      digits.take (digits.length - places) ++ '.' :: digits.drop (digits.length - places)
    else
      '0' :: '.' :: zeros (places - digits.length) ++ digits

/-- One digit before the point, the rest behind it, and a signed exponent. -/
def scientific (decimal : Digits) (leading : Int) : List Char :=
  let digits := digitChars decimal.digits
  let fraction := digits.drop 1
  digits.take 1 ++ (if fraction.isEmpty then [] else '.' :: fraction) ++
    'e' :: (if leading < 0 then '-' else '+') :: digitChars leading.natAbs

/-- The text of a magnitude. -/
def Style.magnitudeText (style : Style) (value : Binary) : List Char :=
  let decimal := shortest style.tie value
  let leading := decimal.exponent + ((digitChars decimal.digits).length : Int) - 1
  match style.exponents with
  | .never => positional style.pointZero decimal
  | .outside first last =>
      if decimal.digits = 0 ∨ (first ≤ leading ∧ leading ≤ last) then
        positional style.pointZero decimal
      else scientific decimal leading

/-- Whether the sign bit is set; negative zero has it too. -/
def isNegative (x : Float) : Bool :=
  x.toBits.toNat / Nat.pow 2 63 = 1

/-- The text of a finite number. -/
def Style.text (style : Style) (x : Float) : String :=
  String.ofList <|
    (if isNegative x then ['-'] else []) ++ style.magnitudeText (Binary.ofBits x.toBits)

end StepCode.Decimal
