import StepCode.Script.Builtin

/-!
# Scripts

Step code: the compiled form of a script or procedure body.  Statements run in order and may suspend
between them; expressions are evaluated at once.
-/

namespace StepCode

inductive Expr where
  | number (x : Float)
  | text (s : String)
  | bool (b : Bool)
  /-- The value of a variable. -/
  | var (name : String)
  /-- The value of a parameter of the unit or helper. -/
  | param (name : String)
  /-- A call of an approved helper. -/
  | helper (name : String) (args : List Expr)
  /-- The value that a block reports, given its named arguments. -/
  | report (opcode : String) (args : List (String × Expr))
  /-- Only the chosen branch is evaluated. -/
  | choose (cond yes no : Expr)
  | builtin (op : Builtin) (args : List Expr)
deriving Repr, Inhabited

inductive Stmt where
  | set (var : String) (value : Expr)
  | change (var : String) (amount : Expr)
  /-- Run a block, given its named arguments. -/
  | op (opcode : String) (args : List (String × Expr))
  /-- Call a procedure; the first character of the signature says whether it runs in warp. -/
  | call (signature : String) (args : List Expr)
  | yield
  | times (count : Expr) (body : List Stmt)
  | forever (body : List Stmt)
  | whileTrue (cond : Expr) (body : List Stmt)
  | untilTrue (cond : Expr) (body : List Stmt)
  | ifElse (cond : Expr) (yes no : List Stmt)
  | ret (value : Option Expr)
deriving Repr, Inhabited

/-- A compiled body with the names its arguments are bound to, in order. -/
structure Script where
  params : List String
  body : List Stmt
deriving Repr, Inhabited

/-- A named expression that compiled code may call. -/
structure Helper where
  name : String
  params : List String
  body : Expr
deriving Repr, Inhabited

/-- What a program ships for running its compiled code: a version and the approved helpers. -/
structure Bootstrap where
  version : String
  helpers : List Helper
deriving Repr, Inhabited

/-- Each name once, where it first occurs. -/
def firstOccurrences : List String → List String
  | [] => []
  | name :: rest => name :: (firstOccurrences rest).filter (· != name)

mutual

/-- The helper calls of an expression, in reading order. -/
def Expr.helperCalls : Expr → List String
  | .helper name args => name :: helperCallsList args
  | .report _ args => helperCallsArgs args
  | .choose cond yes no => cond.helperCalls ++ yes.helperCalls ++ no.helperCalls
  | .builtin _ args => helperCallsList args
  | .number _ => []
  | .text _ => []
  | .bool _ => []
  | .var _ => []
  | .param _ => []

def helperCallsList : List Expr → List String
  | [] => []
  | arg :: rest => arg.helperCalls ++ helperCallsList rest

def helperCallsArgs : List (String × Expr) → List String
  | [] => []
  | (_, arg) :: rest => arg.helperCalls ++ helperCallsArgs rest

end

mutual

/-- The helper calls of a statement, in reading order. -/
def Stmt.helperCalls : Stmt → List String
  | .set _ value => value.helperCalls
  | .change _ amount => amount.helperCalls
  | .op _ args => helperCallsArgs args
  | .call _ args => helperCallsList args
  | .yield => []
  | .times count body => count.helperCalls ++ helperCallsBody body
  | .forever body => helperCallsBody body
  | .whileTrue cond body => cond.helperCalls ++ helperCallsBody body
  | .untilTrue cond body => cond.helperCalls ++ helperCallsBody body
  | .ifElse cond yes no => cond.helperCalls ++ helperCallsBody yes ++ helperCallsBody no
  | .ret none => []
  | .ret (some value) => value.helperCalls

def helperCallsBody : List Stmt → List String
  | [] => []
  | stmt :: rest => stmt.helperCalls ++ helperCallsBody rest

end

/-- The helpers that an expression calls, each once. -/
def Expr.helperNames (expr : Expr) : List String :=
  firstOccurrences expr.helperCalls

/-- The helpers that a script calls, each once. -/
def Script.helperNames (script : Script) : List String :=
  firstOccurrences (helperCallsBody script.body)

mutual

/-- Equality of expressions; numbers are compared by value. -/
def Expr.same : Expr → Expr → Bool
  | .number x, .number y => x == y
  | .text s, .text t => s == t
  | .bool a, .bool b => a == b
  | .var m, .var n => m == n
  | .param m, .param n => m == n
  | .helper m xs, .helper n ys => m == n && Expr.sameList xs ys
  | .report m xs, .report n ys => m == n && Expr.sameArgs xs ys
  | .choose a b c, .choose x y z => a.same x && b.same y && c.same z
  | .builtin f xs, .builtin g ys => f == g && Expr.sameList xs ys
  | _, _ => false

def Expr.sameList : List Expr → List Expr → Bool
  | [], [] => true
  | x :: xs, y :: ys => x.same y && Expr.sameList xs ys
  | _, _ => false

def Expr.sameArgs : List (String × Expr) → List (String × Expr) → Bool
  | [], [] => true
  | (m, x) :: xs, (n, y) :: ys => m == n && x.same y && Expr.sameArgs xs ys
  | _, _ => false

end

mutual

def Stmt.same : Stmt → Stmt → Bool
  | .set m x, .set n y => m == n && x.same y
  | .change m x, .change n y => m == n && x.same y
  | .op m xs, .op n ys => m == n && Expr.sameArgs xs ys
  | .call m xs, .call n ys => m == n && Expr.sameList xs ys
  | .yield, .yield => true
  | .times x xs, .times y ys => x.same y && Stmt.sameList xs ys
  | .forever xs, .forever ys => Stmt.sameList xs ys
  | .whileTrue x xs, .whileTrue y ys => x.same y && Stmt.sameList xs ys
  | .untilTrue x xs, .untilTrue y ys => x.same y && Stmt.sameList xs ys
  | .ifElse x xs us, .ifElse y ys vs => x.same y && Stmt.sameList xs ys && Stmt.sameList us vs
  | .ret none, .ret none => true
  | .ret (some x), .ret (some y) => x.same y
  | _, _ => false

def Stmt.sameList : List Stmt → List Stmt → Bool
  | [], [] => true
  | x :: xs, y :: ys => x.same y && Stmt.sameList xs ys
  | _, _ => false

end

def Script.same (left right : Script) : Bool :=
  left.params == right.params && Stmt.sameList left.body right.body

def Helper.same (left right : Helper) : Bool :=
  left.name == right.name && left.params == right.params && left.body.same right.body

def Helper.sameList : List Helper → List Helper → Bool
  | [], [] => true
  | x :: xs, y :: ys => x.same y && Helper.sameList xs ys
  | _, _ => false

def Bootstrap.same (left right : Bootstrap) : Bool :=
  left.version == right.version && Helper.sameList left.helpers right.helpers

end StepCode
