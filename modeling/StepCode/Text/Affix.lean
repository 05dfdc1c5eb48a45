/-!
# Parts of texts

How a text begins and ends, and what occurs in it.
-/

namespace StepCode.Text

/-- Whether `start` begins `text`. -/
def startsWith (text start : String) : Bool :=
  start.toList.isPrefixOf text.toList

/-- What follows `start`, if `text` begins with it. -/
def afterStart? (text start : String) : Option String :=
  if startsWith text start then some (String.ofList (text.toList.drop start.toList.length)) else none

/-- Whether `tail` ends `text`. -/
def endsWith (text tail : String) : Bool :=
  tail.toList.isSuffixOf text.toList

/-- Whether `part` occurs in a text. -/
def occursIn (part : List Char) : List Char → Bool
  | [] => part.isEmpty
  | c :: rest => part.isPrefixOf (c :: rest) || occursIn part rest

/-- Whether two texts agree once the letters A to Z are lowered. -/
def sameIgnoringAsciiCase (left right : String) : Bool :=
  left.toList.map Char.toLower == right.toList.map Char.toLower

end StepCode.Text
