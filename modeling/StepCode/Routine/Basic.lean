import StepCode.Script.Parser
import StepCode.Table

/-!
# Routines

A script made ready to run: its statement lists lie side by side in one list of bodies, and
statements that hold others refer to them by number, so that a point of the program is a pair of
numbers.  A routine carries the helpers it calls.
-/

namespace StepCode

/-- A statement whose bodies are numbers. -/
inductive Instr where
  | set (var : String) (value : Expr)
  | change (var : String) (amount : Expr)
  | op (opcode : String) (args : List (String × Expr))
  | call (signature : String) (args : List Expr)
  | yield
  | times (count : Expr) (body : Nat)
  | forever (body : Nat)
  | whileTrue (cond : Expr) (body : Nat)
  | untilTrue (cond : Expr) (body : Nat)
  | ifElse (cond : Expr) (yes no : Nat)
  | ret (value : Option Expr)
deriving Repr, Inhabited

namespace Instr

/-- Whether a run may stop here and go on in a later tick. -/
def maySuspend : Instr → Bool
  | .op .. => true
  | .call .. => true
  | .yield => true
  | .times .. => true
  | .forever .. => true
  | .whileTrue .. => true
  | .untilTrue .. => true
  | .set .. => false
  | .change .. => false
  | .ifElse .. => false
  | .ret .. => false

/-- The bodies that a statement holds. -/
def bodies : Instr → List Nat
  | .times _ body => [body]
  | .forever body => [body]
  | .whileTrue _ body => [body]
  | .untilTrue _ body => [body]
  | .ifElse _ yes no => [yes, no]
  | _ => []

end Instr

/-- Whether a routine may be suspended at all. -/
inductive RoutineKind where
  | resumable
  | singleShot
deriving DecidableEq, Repr

namespace Routine

/-- Take the next free place, fill it, and give its number.  What `fill` numbers comes behind it. -/
def reserve (fill : List (List Instr) → List Instr × List (List Instr))
    (bodies : List (List Instr)) : Nat × List (List Instr) :=
  let id := bodies.length
  let (body, bodies) := fill (bodies ++ [[]])
  (id, bodies.set id body)

mutual

/-- Number the bodies of a statement list. -/
def flatten : List Stmt → List (List Instr) → List Instr × List (List Instr)
  | [], bodies => ([], bodies)
  | stmt :: rest, bodies =>
      let (instr, bodies) := flattenStmt stmt bodies
      let (instrs, bodies) := flatten rest bodies
      (instr :: instrs, bodies)

def flattenStmt : Stmt → List (List Instr) → Instr × List (List Instr)
  | .set var value, bodies => (.set var value, bodies)
  | .change var amount, bodies => (.change var amount, bodies)
  | .op opcode args, bodies => (.op opcode args, bodies)
  | .call signature args, bodies => (.call signature args, bodies)
  | .yield, bodies => (.yield, bodies)
  | .times count body, bodies =>
      let (id, bodies) := reserve (flatten body) bodies
      (.times count id, bodies)
  | .forever body, bodies =>
      let (id, bodies) := reserve (flatten body) bodies
      (.forever id, bodies)
  | .whileTrue cond body, bodies =>
      let (id, bodies) := reserve (flatten body) bodies
      (.whileTrue cond id, bodies)
  | .untilTrue cond body, bodies =>
      let (id, bodies) := reserve (flatten body) bodies
      (.untilTrue cond id, bodies)
  | .ifElse cond yes no, bodies =>
      let (yes, bodies) := reserve (flatten yes) bodies
      let (no, bodies) := reserve (flatten no) bodies
      (.ifElse cond yes no, bodies)
  | .ret value, bodies => (.ret value, bodies)

end

/-- The number of the body that a run starts with. -/
def entry : Nat := 0

/-- The statement lists of a script, each under its number. -/
def numbered (stmts : List Stmt) : List (List Instr) :=
  let (body, bodies) := flatten stmts [[]]
  bodies.set entry body

end Routine

/-- A script with its statement lists numbered, and the helpers it calls. -/
structure Routine where
  script : Script
  bodies : List (List Instr)
  helpers : Table Helper
  isNumbered : bodies = Routine.numbered script.body
deriving Repr

instance : Inhabited Routine := ⟨⟨⟨[], []⟩, Routine.numbered [], .empty, rfl⟩⟩

namespace Routine

def params (routine : Routine) : List String := routine.script.params

def body (routine : Routine) (id : Nat) : List Instr := (routine.bodies[id]?).getD []

def instr? (routine : Routine) (id index : Nat) : Option Instr := (routine.body id)[index]?

/-- A statement is found only in a body that is there. -/
theorem exists_body_of_instr? {routine : Routine} {id index : Nat} {instr : Instr}
    (found : routine.instr? id index = some instr) :
    ∃ body, routine.bodies[id]? = some body ∧ body[index]? = some instr := by
  unfold instr? body at found
  cases stored : routine.bodies[id]? with
  | none => simp [stored] at found
  | some body =>
      rw [stored, Option.getD_some] at found
      exact ⟨body, rfl, found⟩

def kind (routine : Routine) : RoutineKind :=
  if routine.bodies.any (·.any Instr.maySuspend) then .resumable else .singleShot

end Routine

/-- Why a source is no routine. -/
inductive LoadError where
  | parse (error : ParseError)
  | unknownHelper (name : String)
deriving Repr

def LoadError.message : LoadError → String
  | .parse error => error.message
  | .unknownHelper name => s!"helper `{name}` is not in the approved helper table"

end StepCode
