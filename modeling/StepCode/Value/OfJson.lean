import StepCode.Json.Printer
import StepCode.Value

/-!
# Values in descriptors

How the JSON of a descriptor becomes a value: initial values of variables, payloads of inputs and
fields.
-/

namespace StepCode

/-- The text of a JSON value where text is wanted: a string stands for itself, nothing for the empty
text, anything else for its JSON text. -/
def Json.plainText : Json → String
  | .text s => s
  | .null => ""
  | json => json.compact

/-- The finite number that a text spells, blanks around it not counted. -/
def Text.finiteNumber? (s : String) : Option Float :=
  match Decimal.read? (Text.trimChars s.toList) with
  | some x => if x.isNaN || x.isInf then none else some x
  | none => none

namespace Value

def ofJson : Json → Value
  | .int i => .number (Float.ofInt i)
  | .float x => .number x
  | .text s => .text s
  | .bool b => .bool b
  | .null => .empty
  | json => .text json.compact

/-- A literal of a numeric slot: text that spells a finite number is that number. -/
def numericLiteral (json : Json) : Value :=
  match json.asFloat? with
  | some x => .number x
  | none =>
      match Text.finiteNumber? json.plainText with
      | some x => .number x
      | none => .text json.plainText

end Value

end StepCode
