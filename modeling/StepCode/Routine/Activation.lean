import StepCode.Routine.Basic
import StepCode.Value

/-!
# Activations

Where compiled code stands: a stack of calls, each with the bodies it is in, innermost first, and the
block that the innermost call waits for.
-/

namespace StepCode

/-- What a block keeps between two runs of itself. -/
structure BlockState where
  /-- When its timer was started, in nanoseconds. -/
  timer : Option Nat
  /-- How long the timer runs, in milliseconds. -/
  duration : Float
  /-- Iterations that are left. -/
  counter : Option Nat
deriving Repr, Inhabited

def BlockState.fresh : BlockState := ⟨none, 0.0, none⟩

/-- What happens at the end of a body. -/
inductive Rule where
  | once
  /-- Run the body this many times more. -/
  | times (left : Nat)
  /-- Ask the loop at `index` of the body `owner` again. -/
  | recheck (owner index : Nat)
deriving DecidableEq, Repr

/-- A body that is being run: the next statement and what happens at the end. -/
structure BodyFrame where
  body : Nat
  index : Nat
  rule : Rule
deriving DecidableEq, Repr

/-- One call of a routine. -/
structure Activation where
  routine : Routine
  params : Table Value
  warp : Bool
  frames : List BodyFrame
deriving Repr, Inhabited

/-- A call at the beginning of its routine. -/
def Activation.enter (routine : Routine) (params : Table Value) (warp : Bool) : Activation :=
  ⟨routine, params, warp, [⟨Routine.entry, 0, .once⟩]⟩

/-- A block that compiled code runs, perhaps several times over. -/
structure PendingOp where
  opcode : String
  args : Table Value
  state : BlockState
deriving Repr, Inhabited

/-- Compiled code on its way: the block it waits for, if any, and the calls. -/
structure Sequence where
  pending : Option PendingOp
  calls : List Activation
deriving Repr, Inhabited

/-- Values by parameter name.  Missing values are empty, and of two parameters with one name the
later counts. -/
def bindParams (names : List String) (values : List Value) : Table Value :=
  .ofList (names.zipIdx.map fun (name, index) => (name, (values[index]?).getD .empty))

end StepCode
