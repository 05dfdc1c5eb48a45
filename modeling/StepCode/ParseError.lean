/-!
# Parse errors

Why a text is no step code, and where.  Places are byte ranges of the source in UTF-8.
-/

namespace StepCode

/-- The bytes from `start` up to, but not including, `stop`. -/
structure Span where
  start : Nat
  stop : Nat
deriving DecidableEq, Repr, Inhabited

/-- What can be wrong with a source. -/
inductive Problem where
  | unclosedList
  | unexpectedClose
  | unterminatedText
  | unknownEscape (c : Char)
  | emptySource
  | severalForms
  | expectedHead (head : String)
  | expectedText (what : String)
  | expectedParameters
  | versionMissing
  | helperNameMissing
  | helperBodyNotSingle
  | expectedStatement
  | keywordMissing
  | unknownStatement (keyword : String)
  | expectedOneValue
  | emptySignature
  | yieldOperands
  | countMissing
  | loopConditionMissing
  | ifConditionMissing
  | expectedClause
  | returnValues
  | argumentNameNotText
  | expectedArgument
  | unexpectedSymbol (symbol : String)
  | operatorMissing
  | calledHelperMissing
  | chooseOperands
  | unknownOperator (symbol : String)
  | operandCount (symbol : String) (count : Nat)
deriving DecidableEq, Repr

namespace Problem

/-- The wording of a problem. -/
def message : Problem → String
  | unclosedList => "unclosed list"
  | unexpectedClose => "unexpected `)`"
  | unterminatedText => "unterminated string"
  | unknownEscape c => "unknown escape `\\" ++ c.toString ++ "`"
  | emptySource => "empty source"
  | severalForms => "expected a single top-level form"
  | expectedHead head => "expected `(" ++ head ++ " ...)`"
  | expectedText what => "expected " ++ what ++ " string"
  | expectedParameters => "expected a parameter list"
  | versionMissing => "bootstrap needs a version string"
  | helperNameMissing => "helper needs a name"
  | helperBodyNotSingle => "helper body must be a single expression"
  | expectedStatement => "expected a statement"
  | keywordMissing => "statement must start with a keyword"
  | unknownStatement keyword => "unknown statement `" ++ keyword ++ "`"
  | expectedOneValue => "expected exactly one value"
  | emptySignature => "call signature is empty"
  | yieldOperands => "yield takes no operands"
  | countMissing => "repeat needs a count"
  | loopConditionMissing => "loop needs a condition"
  | ifConditionMissing => "if needs a condition"
  | expectedClause => "expected `(then ...)` or `(else ...)`"
  | returnValues => "return takes at most one value"
  | argumentNameNotText => "argument name must be a string"
  | expectedArgument => "expected `(\"NAME\" value)`"
  | unexpectedSymbol symbol => "unexpected symbol `" ++ symbol ++ "`"
  | operatorMissing => "expression must start with an operator"
  | calledHelperMissing => "helper call needs a name"
  | chooseOperands => "`?` takes a condition and two values"
  | unknownOperator symbol => "unknown operator `" ++ symbol ++ "`"
  | operandCount symbol count =>
      "wrong number of operands for `" ++ symbol ++ "`: " ++ toString count

/-- Hints that go with some problems. -/
def notes : Problem → List String
  | unclosedList => ["every `(` needs a matching `)`"]
  | severalForms => ["wrap statements inside one `(script ...)` form"]
  | unknownStatement _ =>
      ["statements: set change op call yield repeat forever while until if return"]
  | _ => []

end Problem

/-- A problem and the bytes it concerns. -/
structure ParseError where
  problem : Problem
  span : Span
deriving DecidableEq, Repr

/-- The problem with its place, in one line. -/
def ParseError.message (error : ParseError) : String :=
  error.problem.message ++ " (bytes " ++ toString error.span.start ++ ".." ++
    toString error.span.stop ++ ")"

end StepCode
