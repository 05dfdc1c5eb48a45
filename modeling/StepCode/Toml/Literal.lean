import StepCode.Decimal.Reading
import StepCode.Toml.Basic
import StepCode.Toml.Rule

/-!
# TOML literals

Numbers, truth values, dates and times.
-/

namespace StepCode.Toml.Grammar

open Rule

def hexDigitValue (c : Char) : Nat :=
  if c.isDigit then c.toNat - 48 else c.toLower.toNat - 87

def isHexDigit (c : Char) : Bool :=
  c.isDigit || ('a' ≤ c.toLower && c.toLower ≤ 'f')

def isOctalDigit (c : Char) : Bool := '0' ≤ c && c ≤ '7'

def isBinaryDigit (c : Char) : Bool := c == '0' || c == '1'

/-- The value of digits in a base. -/
def baseValue (base : Nat) (digits : List Char) : Nat :=
  digits.foldl (fun value c => base * value + hexDigitValue c) 0

def withoutUnderscores (chars : List Char) : List Char :=
  chars.filter (· != '_')

/-- More digits; behind an underscore a digit has to follow. -/
def moreDigits (isDigit : Char → Bool) : Rule Unit :=
  discard (many (satisfy isDigit <|> (do expect '_'; commit (satisfy isDigit))))

def digits (isDigit : Char → Bool) : Rule Unit := do
  discard (satisfy isDigit)
  moreDigits isDigit

def sign : Rule Char := satisfy fun c => c == '+' || c == '-'

/-- A decimal integer; one that is not zero does not start with a zero. -/
def decimal : Rule Unit := do
  discard (optional sign)
  (do
    discard (satisfy fun c => '1' ≤ c && c ≤ '9')
    moreDigits Char.isDigit) <|> discard (satisfy Char.isDigit)

/-- A number out of the 64-bit range is no integer. -/
def integerInRange (i : Int) : Option Toml :=
  if -(Int.pow 2 63) ≤ i ∧ i < Int.pow 2 63 then some (.int i) else none

/-- The value of the characters of a decimal integer. -/
def decimalValue? (chars : List Char) : Option Toml :=
  match withoutUnderscores chars with
  | '-' :: digits => integerInRange (-(Decimal.digitsValue digits : Int))
  | '+' :: digits => integerInRange (Decimal.digitsValue digits)
  | digits => integerInRange (Decimal.digitsValue digits)

/-- An integer behind a zero and the mark of its base. -/
def basedInteger (mark : Char) (isDigit : Char → Bool) (base : Nat) : Rule Toml :=
  required
    (do
      word ['0', mark]
      commit (passed (digits isDigit)))
    fun chars => integerInRange (baseValue base (withoutUnderscores chars))

def integer : Rule Toml := fun cursor =>
  match cursor.rest with
  | '0' :: 'x' :: _ => basedInteger 'x' isHexDigit 16 cursor
  | '0' :: 'o' :: _ => basedInteger 'o' isOctalDigit 8 cursor
  | '0' :: 'b' :: _ => basedInteger 'b' isBinaryDigit 2 cursor
  | _ => required (passed decimal) decimalValue? cursor

def exponent : Rule Unit := do
  discard (satisfy fun c => c == 'e' || c == 'E')
  discard (optional sign)
  commit (digits Char.isDigit)

def fraction : Rule Unit := do
  expect '.'
  commit (digits Char.isDigit)

/-- The value of the characters of a float; a number beyond the largest one has none. -/
def floatValue? (chars : List Char) : Option Toml :=
  match Decimal.read? (withoutUnderscores chars) with
  | some x => if x == 1.0 / 0.0 then none else some (.float x)
  | none => none

def specialFloat : Rule Toml := do
  let minus := (← optional sign) == some '-'
  (do word ['i', 'n', 'f']; return .float (if minus then -(1.0 / 0.0) else 1.0 / 0.0)) <|>
    (do word ['n', 'a', 'n']; return .float (0.0 / 0.0))

/-- An integer with an exponent, or with a fraction and then maybe an exponent. -/
def float : Rule Toml :=
  required
    (passed do
      decimal
      exponent <|> (do fraction; discard (optional exponent)))
    floatValue? <|> specialFloat

/-- Two digits with a value in a range. -/
def twoDigits (low high : Nat) : Rule Nat :=
  checked (exactly 2 Char.isDigit) fun chars =>
    let n := Decimal.digitsValue chars
    if low ≤ n ∧ n ≤ high then some n else none

def isLeapYear (year : Nat) : Bool :=
  year % 4 == 0 && (year % 100 != 0 || year % 400 == 0)

def daysOfMonth (year month : Nat) : Nat :=
  if month = 2 then (if isLeapYear year then 29 else 28)
  else if month = 4 ∨ month = 6 ∨ month = 9 ∨ month = 11 then 30
  else 31

/-- A day of the calendar; behind the year and a dash the rest has to follow. -/
def calendarDay : Rule Unit := do
  let year ← exactly 4 Char.isDigit
  expect '-'
  commit do
    let month ← twoDigits 1 12
    expect '-'
    discard (twoDigits 1 (daysOfMonth (Decimal.digitsValue year) month))

/-- A time of the day, maybe with a leap second; behind the hour and a colon the rest has to
follow. -/
def timeOfDay : Rule Unit := do
  discard (twoDigits 0 23)
  expect ':'
  commit do
    discard (twoDigits 0 59)
    expect ':'
    discard (twoDigits 0 60)
    discard (optional do expect '.'; many1 (satisfy Char.isDigit))

def timeOffset : Rule Unit :=
  discard (satisfy fun c => c == 'Z' || c == 'z') <|> (do
    discard sign
    commit do
      discard (twoDigits 0 23)
      expect ':'
      discard (twoDigits 0 59))

/-- A day, a day and a time, or a time. -/
def date : Rule Toml := do
  (do
    calendarDay
    discard (optional do
      discard (satisfy fun c => c == 'T' || c == 't' || c == ' ')
      timeOfDay
      optional timeOffset)) <|> timeOfDay
  return .date

/-- A date or a number. -/
def number : Rule Toml := date <|> float <|> integer

end StepCode.Toml.Grammar
