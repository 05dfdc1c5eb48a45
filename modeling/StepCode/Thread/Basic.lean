import StepCode.Routine.Activation

/-!
# Threads

A running script: the stack of the block interpreter and, while compiled code runs in its place, the
stack of activations.  Stacks have their innermost level first.
-/

namespace StepCode

inductive Status where
  | running
  /-- Not again in this tick. -/
  | yielded
  | done
deriving DecidableEq, Repr, Inhabited

/-- A level of the interpreter's stack. -/
structure Frame where
  /-- The block to run next; none at the end of the chain. -/
  pc : Option String
  /-- The chain is the body of a loop: its end is the end of an iteration. -/
  isLoop : Bool
  warp : Bool
  /-- The arguments, if the chain is a procedure. -/
  params : Option (Table Value)
  state : BlockState
deriving Repr, Inhabited

/-- A plain chain from a block on. -/
def Frame.start (id : String) : Frame := ⟨some id, false, false, none, .fresh⟩

structure Thread where
  id : Nat
  /-- The number of the target. -/
  target : Nat
  topBlock : String
  status : Status
  frames : List Frame
  compiled : Option Sequence
deriving Repr, Inhabited

namespace Thread

def start (id target : Nat) (topBlock : String) : Thread :=
  ⟨id, target, topBlock, .running, [.start topBlock], none⟩

def isDone (thread : Thread) : Bool := thread.status == .done

def isCompiled (thread : Thread) : Bool := thread.compiled.isSome

/-- Whether two threads run the same script. -/
def sameScript (left right : Thread) : Bool :=
  left.target == right.target && left.topBlock == right.topBlock

/-- An argument of the innermost procedure. -/
def param? (thread : Thread) (name : String) : Option Value := do
  let params ← thread.frames.findSome? Frame.params
  params.get? name

def inWarp (thread : Thread) : Bool :=
  match thread.frames with
  | frame :: _ => frame.warp
  | [] => false

/-- End the script for good. -/
def retire (thread : Thread) : Thread :=
  { thread with status := .done, frames := [], compiled := none }

def withStatus (thread : Thread) (status : Status) : Thread :=
  { thread with status := status }

/-- A thread that gave up the last tick runs again. -/
def wake (thread : Thread) : Thread :=
  if thread.status = .yielded then thread.withStatus .running else thread

/-- Change the innermost frame. -/
def mapFrame (f : Frame → Frame) (thread : Thread) : Thread :=
  match thread.frames with
  | frame :: rest => { thread with frames := f frame :: rest }
  | [] => thread

def push (frame : Frame) (thread : Thread) : Thread :=
  { thread with frames := frame :: thread.frames }

end Thread

end StepCode
