import StepCode.Host.Basic

/-!
# Block calls

What a block sees while it runs: the host, its thread, its own state between runs, and whether it
stands in a script or is called by compiled code.  It leaves signals for whoever called it.
-/

namespace StepCode

/-- Where a block is called from. -/
inductive Site where
  | block (id : String)
  | compiled
deriving DecidableEq, Repr

/-- What a block asks its caller to do afterwards. -/
structure Signals where
  /-- Run the block again in the next tick. -/
  rerun : Bool
  /-- Enter this branch, as a loop or not. -/
  branch : Option (Nat × Bool)
  procedure : Option String
  stopScript : Bool
deriving DecidableEq, Repr

def Signals.none : Signals := ⟨false, .none, .none, false⟩

/-- A thread at its turn, and the host it runs on. -/
structure Turn where
  host : Host
  thread : Thread

def Turn.readClock (turn : Turn) : Turn := { turn with host := turn.host.readClock }

/-- A block call under way. -/
structure Call extends Turn where
  site : Site
  state : BlockState
  signals : Signals

/-- What a block does.  Effects before an error remain. -/
abbrev Operation := ExceptT RunError (StateM Call)

/-- What a thread does at its turn.  Effects before an error remain. -/
abbrev Act := ExceptT RunError (StateM Turn)

/-- Whether the tick is overdue by now. -/
def Act.isOverdue : Act Bool := do
  modify Turn.readClock
  return (← get).host.isOverdue

/-- The age of the tick by now, in milliseconds. -/
def Act.elapsed : Act Float := do
  modify Turn.readClock
  return Host.milliseconds (← get).host.tickAge

namespace Operation

def modifyHost (f : Host → Host) : Operation Unit :=
  modify fun call => { call with host := f call.host }

def modifyThread (f : Thread → Thread) : Operation Unit :=
  modify fun call => { call with thread := f call.thread }

def modifyState (f : BlockState → BlockState) : Operation Unit :=
  modify fun call => { call with state := f call.state }

/-- The id of the block, if it stands in a script. -/
def blockId? : Operation (Option String) := do
  match (← get).site with
  | .block id => return some id
  | .compiled => return none

/-- Only a block of a script can do this. -/
def inScript (need : BlockNeed) : Operation Unit := do
  match (← get).site with
  | .block _ => return
  | .compiled => throw (.unsupported need)

/-- Give up the tick and run again in the next one. -/
def repeatNextTick : Operation Unit :=
  modify fun call =>
    { call with
      thread := call.thread.withStatus .yielded
      signals := { call.signals with rerun := true } }

/-- Give up the tick; the block is finished. -/
def endTick : Operation Unit :=
  modifyThread (·.withStatus .yielded)

/-- Enter a branch, counted from one, once the block returns. -/
def enterBranch (branch : Nat) (isLoop : Bool) : Operation Unit := do
  inScript .branch
  modify fun call => { call with signals := { call.signals with branch := some (branch, isLoop) } }

def enterProcedure (proccode : String) : Operation Unit := do
  inScript .procedure
  modify fun call => { call with signals := { call.signals with procedure := some proccode } }

def leaveScript : Operation Unit := do
  inScript .stopScript
  modify fun call => { call with signals := { call.signals with stopScript := true } }

/-- An argument of the procedure that the block stands in. -/
def argument? (name : String) : Operation (Option Value) := do
  inScript .param
  return (← get).thread.param? name

def getVariable (name : String) : Operation Value := do
  let call ← get
  return call.host.getVariable call.thread.target name

def setVariable (name : String) (value : Value) : Operation Unit :=
  modify fun call => { call with host := call.host.setVariable call.thread.target name value }

/-- What the clock shows. -/
def now : Operation Nat := do
  modifyHost Host.readClock
  return (← get).host.now

/-- Run an operation and drop nothing: the outcome, and the call as it was left. -/
def perform {α : Type} (operation : Operation α) (site : Site) (state : BlockState) (turn : Turn) :
    Except RunError α × Call :=
  operation.run.run { turn with site := site, state := state, signals := .none }

end Operation

end StepCode
