import StepCode.Number
import StepCode.Text.Affix
import StepCode.Text.Case

/-!
# Values

What flows through block inputs, variables and step code, with the conversions between kinds and the
two comparisons: the mixed one of blocks, and the strict one of step code.
-/

namespace StepCode

/-- A number, a text, a truth value, or nothing. -/
inductive Value where
  | number (x : Float)
  | text (s : String)
  | bool (b : Bool)
  | empty
deriving DecidableEq, Repr, Inhabited

namespace Value

/-- The text of a number value; both zeros are written the same. -/
def numberText (x : Float) : String :=
  if x.isNaN then "NaN"
  else if x.isInf then (if x > 0.0 then "Infinity" else "-Infinity")
  else if x == 0.0 then "0"
  else Number.text x

def toText : Value → String
  | .number x => numberText x
  | .text s => s
  | .bool b => if b then "true" else "false"
  | .empty => ""

/-- Characters that number text may hold. -/
def isNumberChar (c : Char) : Bool :=
  c.isDigit || c == '+' || c == '-' || c == '.' || c == 'e' || c == 'E'

/-- Number text as block inputs read it: blanks around it do not count, no text at all is zero, and
infinity is spelt out. -/
def readNumber (s : String) : Float :=
  let chars := Text.trimChars s.toList
  let trimmed := String.ofList chars
  if chars.isEmpty then 0.0
  else if trimmed = "Infinity" ∨ trimmed = "+Infinity" then Number.infinity
  else if trimmed = "-Infinity" then -Number.infinity
  else if chars.all isNumberChar then (Decimal.read? chars).getD Number.nan
  else Number.nan

/-- Numeric conversion; text that is no number gives NaN. -/
def toRawNumber : Value → Float
  | .number x => x
  | .bool b => if b then 1.0 else 0.0
  | .empty => 0.0
  | .text s => readNumber s

/-- Numeric conversion of block inputs: NaN counts as zero. -/
def toNumber (value : Value) : Float :=
  let x := value.toRawNumber
  if x.isNaN then 0.0 else x

def toBool : Value → Bool
  | .bool b => b
  | .number x => x != 0.0 && !x.isNaN
  | .text s => !(s == "" || s == "0" || Text.sameIgnoringAsciiCase s "false")
  | .empty => false

/-- Whether comparisons take the value as a number.  Blank text is not one, although it converts to
zero. -/
def isNumeric : Value → Bool
  | .number x => !x.isNaN
  | .bool _ => true
  | .empty => false
  | .text s => !(Text.trimChars s.toList).isEmpty && !(readNumber s).isNaN

/-- By number when both sides are numeric, otherwise by lower-case text. -/
def compare (left right : Value) : Ordering :=
  if left.isNumeric && right.isNumeric then
    (Number.order? left.toRawNumber right.toRawNumber).getD .eq
  else Ord.compare (Text.lower left.toText) (Text.lower right.toText)

def looselyEquals (left right : Value) : Bool :=
  left.compare right == .eq

/-- Same kind and same value; NaN differs from itself and the zeros are equal. -/
def same : Value → Value → Bool
  | .number x, .number y => x == y
  | .text s, .text t => s == t
  | .bool a, .bool b => a == b
  | .empty, .empty => true
  | _, _ => false

end Value

end StepCode
