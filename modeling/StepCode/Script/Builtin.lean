/-!
# Builtin operators

The operators that expressions of step code apply without any helper, each with its symbol and the
number of operands it takes.
-/

namespace StepCode

inductive Builtin where
  | add
  | sub
  | mul
  | div
  | rem
  | lt
  | gt
  | le
  | ge
  | same
  | notSame
  | and
  | or
  | not
  | join
  | lower
  | str
  | len
  | cmp
  | num
  | numeric
  | floor
  | abs
  | round
  | elapsed
deriving DecidableEq, Repr

/-- How many operands an operator takes. -/
inductive Arity where
  | exactly (n : Nat)
  | atLeast (n : Nat)
deriving DecidableEq, Repr

def Arity.accepts (count : Nat) : Arity → Bool
  | .exactly n => count == n
  | .atLeast n => n ≤ count

namespace Builtin

def symbol : Builtin → String
  | add => "+"
  | sub => "-"
  | mul => "*"
  | div => "/"
  | rem => "%"
  | lt => "<"
  | gt => ">"
  | le => "<="
  | ge => ">="
  | same => "=="
  | notSame => "!="
  | and => "and"
  | or => "or"
  | not => "not"
  | join => "join"
  | lower => "lower"
  | str => "str"
  | len => "len"
  | cmp => "cmp"
  | num => "num"
  | numeric => "numeric"
  | floor => "floor"
  | abs => "abs"
  | round => "round"
  | elapsed => "elapsed"

def arity : Builtin → Arity
  | add | sub | mul | div | rem | lt | gt | le | ge | same | notSame | and | or | cmp => .exactly 2
  | not | lower | str | len | num | numeric | floor | abs | round => .exactly 1
  | join => .atLeast 1
  | elapsed => .exactly 0

def all : List Builtin :=
  [add, sub, mul, div, rem, lt, gt, le, ge, same, notSame, and, or, not, join, lower, str, len, cmp,
    num, numeric, floor, abs, round, elapsed]

/-- The operator written as `symbol`. -/
def ofSymbol? (symbol : String) : Option Builtin :=
  all.find? fun op => op.symbol == symbol

/-- An operator is the one its symbol names. -/
theorem ofSymbol?_symbol (op : Builtin) : ofSymbol? op.symbol = some op := by
  cases op <;> rfl

end Builtin

end StepCode
