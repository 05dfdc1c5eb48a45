import StepCode.Decimal.Style
import StepCode.Json.Basic

/-!
# JSON text

The compact text of a tree, and the indented one of reports.
-/

namespace StepCode.Json

/-- Numbers with a fraction or an exponent: a decimal point always, positional between 10⁻⁵ and
10¹⁶, a signed exponent elsewhere. -/
def numberStyle : Decimal.Style where
  exponents := .outside (-5) 15
  pointZero := true
  tie := .toEven

/-- What is not finite has no JSON text. -/
def floatText (x : Float) : String :=
  if x.isNaN || x.isInf then "null" else numberStyle.text x

def hexDigit (n : Nat) : Char :=
  (Nat.toDigits 16 n).headD '0'

/-- Quotes, backslashes and control characters are escaped; everything else stands for itself. -/
def escapeChar (c : Char) : List Char :=
  if c = '"' then ['\\', '"']
  else if c = '\\' then ['\\', '\\']
  else if c = '\n' then ['\\', 'n']
  else if c = '\r' then ['\\', 'r']
  else if c = '\t' then ['\\', 't']
  else if c.toNat = 8 then ['\\', 'b']
  else if c.toNat = 12 then ['\\', 'f']
  else if c.toNat < 32 then
    ['\\', 'u', '0', '0', hexDigit (c.toNat / 16), hexDigit (c.toNat % 16)]
  else [c]

def quote (s : String) : String :=
  String.ofList ('"' :: s.toList.flatMap escapeChar ++ ['"'])

/-- The text of a value that is no container. -/
def scalarText : Json → String
  | .null => "null"
  | .bool b => if b then "true" else "false"
  | .int i => toString i
  | .float x => floatText x
  | .text s => quote s
  | .array _ => ""
  | .object _ => ""

mutual

/-- The text without any white space. -/
def compact : Json → String
  | .array items => "[" ++ compactItems items ++ "]"
  | .object members => "\x7b" ++ compactMembers members ++ "\x7d"
  | .null => "null"
  | .bool b => scalarText (.bool b)
  | .int i => scalarText (.int i)
  | .float x => scalarText (.float x)
  | .text s => scalarText (.text s)

def compactItems : List Json → String
  | [] => ""
  | [item] => compact item
  | item :: rest => compact item ++ "," ++ compactItems rest

def compactMembers : List (String × Json) → String
  | [] => ""
  | [(name, value)] => quote name ++ ":" ++ compact value
  | (name, value) :: rest => quote name ++ ":" ++ compact value ++ "," ++ compactMembers rest

end

/-- A new line at nesting depth `depth`, two blanks a level. -/
def newLine (depth : Nat) : String :=
  "\n" ++ String.ofList (List.replicate (2 * depth) ' ')

mutual

/-- The text with one item or member a line; empty containers stay on theirs. -/
def indented (depth : Nat) : Json → String
  | .array [] => "[]"
  | .array (item :: rest) =>
      "[" ++ newLine (depth + 1) ++ indented (depth + 1) item ++ indentedItems (depth + 1) rest ++
        newLine depth ++ "]"
  | .object [] => "\x7b\x7d"
  | .object ((name, value) :: rest) =>
      "\x7b" ++ newLine (depth + 1) ++ quote name ++ ": " ++ indented (depth + 1) value ++
        indentedMembers (depth + 1) rest ++ newLine depth ++ "\x7d"
  | .null => "null"
  | .bool b => scalarText (.bool b)
  | .int i => scalarText (.int i)
  | .float x => scalarText (.float x)
  | .text s => scalarText (.text s)

def indentedItems (depth : Nat) : List Json → String
  | [] => ""
  | item :: rest => "," ++ newLine depth ++ indented depth item ++ indentedItems depth rest

def indentedMembers (depth : Nat) : List (String × Json) → String
  | [] => ""
  | (name, value) :: rest =>
      "," ++ newLine depth ++ quote name ++ ": " ++ indented depth value ++
        indentedMembers depth rest

end

end StepCode.Json
