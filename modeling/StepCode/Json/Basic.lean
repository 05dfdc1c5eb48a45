import StepCode.Table

/-!
# JSON trees

A tree keeps what its text says: members in order, repeated member names, and whether a number was
written as an integer or with a fraction or exponent.  `settle` gives the meaning of repeated names.
-/

namespace StepCode

/-- A JSON value. -/
inductive Json where
  | null
  | bool (b : Bool)
  | int (i : Int)
  | float (x : Float)
  | text (s : String)
  | array (items : List Json)
  | object (members : List (String × Json))
deriving Repr, Inhabited

namespace Json

mutual

/-- A repeated member name keeps its first place and its last value, at every level. -/
def settle : Json → Json
  | .array items => .array (settleItems items)
  | .object members => .object (Table.ofList (settleMembers members)).entries
  | .null => .null
  | .bool b => .bool b
  | .int i => .int i
  | .float x => .float x
  | .text s => .text s

def settleItems : List Json → List Json
  | [] => []
  | item :: rest => settle item :: settleItems rest

def settleMembers : List (String × Json) → List (String × Json)
  | [] => []
  | (name, value) :: rest => (name, settle value) :: settleMembers rest

end

mutual

/-- Equality of trees; numbers are compared by value, and an integer is never a float. -/
def same : Json → Json → Bool
  | .null, .null => true
  | .bool a, .bool b => a == b
  | .int i, .int j => i == j
  | .float x, .float y => x == y
  | .text s, .text t => s == t
  | .array xs, .array ys => sameItems xs ys
  | .object xs, .object ys => sameMembers xs ys
  | _, _ => false

def sameItems : List Json → List Json → Bool
  | [], [] => true
  | x :: xs, y :: ys => same x y && sameItems xs ys
  | _, _ => false

def sameMembers : List (String × Json) → List (String × Json) → Bool
  | [], [] => true
  | (name, x) :: xs, (other, y) :: ys => name == other && same x y && sameMembers xs ys
  | _, _ => false

end

def asArray? : Json → Option (List Json)
  | .array items => some items
  | _ => none

def asText? : Json → Option String
  | .text s => some s
  | _ => none

/-- A number written as a natural number. -/
def asNat? : Json → Option Nat
  | .int i => if 0 ≤ i then some i.toNat else none
  | _ => none

/-- A number of either kind. -/
def asFloat? : Json → Option Float
  | .int i => some (Float.ofInt i)
  | .float x => some x
  | _ => none

/-- The member called `name`; of several, the last one counts. -/
def member? (name : String) : Json → Option Json
  | .object members => (Table.ofList members).get? name
  | _ => none

end Json

end StepCode
