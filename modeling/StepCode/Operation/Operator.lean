import StepCode.Table
import StepCode.Value

/-!
# Operator blocks

Reporters whose value depends on their arguments alone.
-/

namespace StepCode

inductive Operator where
  | add
  | subtract
  | multiply
  | divide
  | mod
  | lt
  | gt
  | equals
  | and
  | or
  | not
  | join
  | length
  | letterOf
  | contains
  | round
  | mathop
  /-- A literal block: the value of one of its fields. -/
  | literal (field : String)
deriving DecidableEq, Repr

namespace Operator

/-- A function of the mathematics block, by its name in small letters. -/
def mathFunction (name : String) (x : Float) : Float :=
  let radians := x * (3.14159265358979323846264338327950288 / 180.0)
  match name with
  | "abs" => x.abs
  | "floor" => Number.floor x
  | "ceiling" => x.ceil
  | "sqrt" => x.sqrt
  | "sin" => radians.sin
  | "cos" => radians.cos
  | "tan" => radians.tan
  | "ln" => x.log
  | "log" => x.log10
  | "e ^" => x.exp
  | "10 ^" => Float.pow 10.0 x
  | _ => 0.0

/-- A character by its place, counted from one; the empty text where there is none. -/
def letter (place : Int) (text : String) : String :=
  if place < 1 then ""
  else
    match text.toList[(place - 1).toNat]? with
    | some c => String.singleton c
    | none => ""

/-- The remainder with the sign of the divisor. -/
def floorMod (x y : Float) : Float := x - y * Number.floor (x / y)

def apply (args : Table Value) : Operator → Value :=
  let arg (name : String) : Value := (args.get? name).getD .empty
  let number (name : String) : Float := (arg name).toNumber
  fun
    | .add => .number (number "NUM1" + number "NUM2")
    | .subtract => .number (number "NUM1" - number "NUM2")
    | .multiply => .number (number "NUM1" * number "NUM2")
    | .divide => .number (number "NUM1" / number "NUM2")
    | .mod => .number (floorMod (number "NUM1") (number "NUM2"))
    | .lt => .bool ((arg "OPERAND1").compare (arg "OPERAND2") == .lt)
    | .gt => .bool ((arg "OPERAND1").compare (arg "OPERAND2") == .gt)
    | .equals => .bool ((arg "OPERAND1").looselyEquals (arg "OPERAND2"))
    | .and => .bool ((arg "OPERAND1").toBool && (arg "OPERAND2").toBool)
    | .or => .bool ((arg "OPERAND1").toBool || (arg "OPERAND2").toBool)
    | .not => .bool (!(arg "OPERAND").toBool)
    | .join => .text ((arg "STRING1").toText ++ (arg "STRING2").toText)
    | .length => .number (Float.ofNat (arg "STRING").toText.length)
    | .letterOf => .text (letter (Number.toInteger (number "LETTER")) (arg "STRING").toText)
    | .contains =>
        .bool (Text.occursIn (Text.lower (arg "STRING2").toText).toList
          (Text.lower (arg "STRING1").toText).toList)
    | .round => .number (Number.roundHalfUp (number "NUM"))
    | .mathop => .number (mathFunction (Text.lower (arg "OPERATOR").toText) (number "NUM"))
    | .literal field => arg field

end Operator

end StepCode
