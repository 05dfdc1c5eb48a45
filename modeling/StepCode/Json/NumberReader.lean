import StepCode.Json.Basic
import StepCode.Json.Cursor

/-!
# JSON numbers

A number without fraction and exponent that fits 64 bits is an integer.  Any other number is a
64-bit significand scaled by a power of ten in floating-point arithmetic; digits that no longer fit
the significand only count as places.
-/

namespace StepCode.Json

/-- The largest significand. -/
def significandLimit : Nat := Nat.pow 2 64 - 1

def digitValue (c : Char) : Nat := c.toNat - '0'.toNat

/-- Append digits while they fit; what is left starts with the first digit that does not. -/
def takeDigits (significand : Nat) : List Char → Nat × List Char
  | [] => (significand, [])
  | c :: rest =>
      if significand * 10 + digitValue c ≤ significandLimit then
        takeDigits (significand * 10 + digitValue c) rest
      else (significand, c :: rest)

def powerOfTen (n : Nat) : Float := Float.ofScientific 1 false n

/-- `x * 10 ^ exponent`, by one multiplication or division.  Exponents below -308 take further
divisions, of which `fuel` bounds the number.  Overflow gives `none`. -/
def scale : (fuel : Nat) → Float → Int → Option Float
  | 0, _, _ => some 0.0
  | fuel + 1, x, exponent =>
      if exponent.natAbs ≤ 308 then
        if 0 ≤ exponent then
          let scaled := x * powerOfTen exponent.natAbs
          if scaled.isInf then none else some scaled
        else some (x / powerOfTen exponent.natAbs)
      else if x == 0.0 then some x
      else if 0 ≤ exponent then none
      else scale fuel (x / powerOfTen 308) (exponent + 308)

/-- The largest exponent that is computed with. -/
def exponentLimit : Nat := Nat.pow 2 31 - 1

/-- The digits of an exponent up to the first that makes it too large; the second part is the rest. -/
def takeExponent (exponent : Nat) : List Char → Nat × List Char
  | [] => (exponent, [])
  | c :: rest =>
      if exponent * 10 + digitValue c ≤ exponentLimit then
        takeExponent (exponent * 10 + digitValue c) rest
      else (exponent, c :: rest)

/-- An exponent is kept within 32 bits. -/
def clampExponent (e : Int) : Int := max (-(Int.pow 2 31)) (min (Int.pow 2 31 - 1) e)

def signed (minus : Bool) (x : Float) : Float := if minus then -x else x

/-- Finish a number with fraction or exponent. -/
def finish (minus : Bool) (significand : Nat) (exponent : Int) (cursor : Cursor) :
    Except Fault (Json × Cursor) :=
  match scale 10 (Float.ofNat significand) exponent with
  | some x => .ok (.float (signed minus x), cursor)
  | none => .error ⟨.malformed, cursor.offset⟩

/-- The digits of an exponent, behind its sign. -/
def readPower (minus : Bool) (significand : Nat) (exponent : Int) (negative : Bool)
    (rest : List Char) (offset : Nat) : Except Fault (Json × Cursor) :=
  let digits := rest.takeWhile Char.isDigit
  let tail := rest.dropWhile Char.isDigit
  if digits.isEmpty then
    .error (if rest.isEmpty then ⟨.truncated, offset⟩ else ⟨.malformed, offset + 1⟩)
  else
    let after : Cursor := ⟨tail, offset + digits.length⟩
    let (power, excess) := takeExponent 0 digits
    if excess.isEmpty then
      finish minus significand
        (clampExponent (if negative then exponent - power else exponent + power)) after
    else if significand ≠ 0 ∧ !negative then
      .error ⟨.malformed, offset + (digits.length - excess.length) + 1⟩
    else .ok (.float (signed minus 0.0), after)

/-- The part behind the exponent mark, at `rest`. -/
def readExponent (minus : Bool) (significand : Nat) (exponent : Int) (rest : List Char)
    (offset : Nat) : Except Fault (Json × Cursor) :=
  match rest with
  | '+' :: tail => readPower minus significand exponent false tail (offset + 1)
  | '-' :: tail => readPower minus significand exponent true tail (offset + 1)
  | _ => readPower minus significand exponent false rest offset

/-- An exponent, or the end of the number. -/
def readEnd (minus : Bool) (significand : Nat) (exponent : Int) (cursor : Cursor) :
    Except Fault (Json × Cursor) :=
  match cursor.rest with
  | c :: rest =>
      if c = 'e' ∨ c = 'E' then readExponent minus significand exponent rest (cursor.offset + 1)
      else finish minus significand exponent cursor
  | [] => finish minus significand exponent cursor

/-- A fraction, an exponent, or the end of the number, behind the digits before the point. -/
def readScaled (minus : Bool) (significand : Nat) (exponent : Int) (cursor : Cursor) :
    Except Fault (Json × Cursor) :=
  match cursor.rest with
  | '.' :: rest =>
      let digits := rest.takeWhile Char.isDigit
      if digits.isEmpty then .error (Cursor.faultAhead ⟨rest, cursor.offset + 1⟩)
      else
        let (significand, excess) := takeDigits significand digits
        readEnd minus significand (exponent - (digits.length - excess.length : Nat))
          ⟨rest.dropWhile Char.isDigit, cursor.offset + 1 + digits.length⟩
  | _ => readEnd minus significand exponent cursor

/-- Whether a fraction or an exponent follows. -/
def isScaled : List Char → Bool
  | c :: _ => c == '.' || c == 'e' || c == 'E'
  | [] => false

/-- An integer; negative ones have 63 bits, and negative zero is no integer. -/
def integer (minus : Bool) (n : Nat) : Json :=
  if !minus then .int n
  else if n = 0 ∨ Nat.pow 2 63 < n then .float (-(Float.ofNat n))
  else .int (-n)

/-- Read a number whose sign, if any, has been passed. -/
def readNumber (minus : Bool) (cursor : Cursor) : Except Fault (Json × Cursor) :=
  let digits := cursor.rest.takeWhile Char.isDigit
  let after : Cursor := ⟨cursor.rest.dropWhile Char.isDigit, cursor.offset + digits.length⟩
  match digits with
  | [] =>
      .error (if cursor.rest.isEmpty then ⟨.truncated, cursor.offset⟩
        else ⟨.malformed, cursor.offset + 1⟩)
  | '0' :: _ :: _ => .error ⟨.malformed, cursor.offset + 2⟩
  | _ =>
      let (significand, excess) := takeDigits 0 digits
      if excess.isEmpty && !isScaled after.rest then .ok (integer minus significand, after)
      else readScaled minus significand excess.length after

end StepCode.Json
