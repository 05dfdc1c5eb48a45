import StepCode.Routine.Run

/-!
# The meaning of step code

What a script does, told by recursion on its statements: without numbered bodies, frames or stacks of
calls.  Beside the state of the host and the thread, the story keeps every write to a variable, every
block that was run, every entry of a procedure and every suspension, with the state that it left.

Statements that need not end by themselves (loops, blocks that run again, calls) are followed only as
far as the fuel reaches, and the more fuel the further.
-/

namespace StepCode

/-- What step code does that is kept in its story. -/
inductive Deed where
  /-- A variable was written. -/
  | write (var : String)
  /-- A block was run, in the state that it had kept. -/
  | block (opcode : String) (args : Table Value) (state : BlockState)
  /-- A procedure was entered. -/
  | entry (signature : String) (params : Table Value) (warp : Bool)
  /-- The code was suspended. -/
  | suspension

/-- A thread at its turn and what its step code has done so far, the latest first, each deed with the
state that it left. -/
structure Story where
  turn : Turn
  deeds : List (Deed × Turn)

namespace Story

/-- Something was done. -/
def add (deed : Deed) (story : Story) : Story :=
  { story with deeds := (deed, story.turn) :: story.deeds }

/-- Suspend the code.  Until it is resumed, anything may happen to the host and the thread: `outside`
says what. -/
def suspend (outside : Story → Turn) (story : Story) : Story :=
  let suspended := story.add .suspension
  { suspended with turn := outside suspended }

def mapTurn (change : Turn → Turn) (story : Story) : Story :=
  { story with turn := change story.turn }

def mapThread (change : Thread → Thread) : Story → Story :=
  mapTurn fun turn => { turn with thread := change turn.thread }

end Story

/-- Why the statements of a call are not run to their end. -/
inductive Halt where
  | returned (value : Value)
  | failed (error : RunError)
  /-- The thread was ended under them. -/
  | retired
  /-- They are not followed any further. -/
  | exhausted

abbrev Telling := ExceptT Halt (StateM Story)

namespace Telling

/-- What the thread does at its turn. -/
def act {α : Type} (action : Act α) : Telling α := fun story =>
  match action.run.run story.turn with
  | (.ok value, turn) => (.ok value, { story with turn := turn })
  | (.error error, turn) => (.error (.failed error), { story with turn := turn })

def note (deed : Deed) : Telling Unit := modify (Story.add deed)

/-- Go on unless the thread was ended. -/
def goOnIfAlive : Telling Unit := do
  if (← get).turn.thread.isDone then throw .retired

/-- Break off at a yield.  On a thread that was ended nothing follows.  A thread that has given up the
tick already is taken for one whose block is finished, and only set running. -/
def pause (outside : Story → Turn) : Telling Unit := do
  let thread := (← get).turn.thread
  if thread.isDone then throw .retired
  else if thread.status = .yielded then modify (Story.mapThread Thread.wake)
  else modify (Story.suspend outside)

/-- A call ends at its first `return`, or else at its end without a value. -/
def valueOfCall (body : Telling Unit) : Telling Value := fun story =>
  match body.run.run story with
  | (.ok _, story) => (.ok .empty, story)
  | (.error (.returned value), story) => (.ok value, story)
  | (.error halt, story) => (.error halt, story)

/-- Run something this many times. -/
def times (body : Telling Unit) : (count : Nat) → Telling Unit
  | 0 => return
  | count + 1 => do
      body
      times body count

/-- Run something as long as the test is passed before. -/
def whilePassed (test : Act Bool) (body : Telling Unit) : (fuel : Nat) → Telling Unit
  | 0 => throw .exhausted
  | fuel + 1 => do
      if ← act test then
        body
        whilePassed test body fuel

/-- Run a block until it is finished.  Until then it is run again after a suspension, with the same
arguments and what it has kept.  That a finished block gave up the tick suspends nothing: the code goes
on in the same tick. -/
def block (foreign : Foreign) (outside : Story → Turn) (opcode : String) (args : Table Value) :
    (fuel : Nat) → BlockState → Telling Unit
  | 0, _ => throw .exhausted
  | fuel + 1, state => do
      let completion ← act (runBlock foreign opcode args state)
      if (← get).turn.thread.isDone then
        note (.block opcode args state)
        throw .retired
      else if completion.finished then
        modify (Story.mapThread Thread.wake)
        note (.block opcode args state)
      else
        modify (Story.mapThread (·.withStatus .running))
        note (.block opcode args state)
        modify (Story.suspend outside)
        block foreign outside opcode args fuel completion.state

end Telling

/-- What the statements of a call refer to: the helpers of its routine, its parameters, and whether it
runs in warp. -/
structure Scope where
  routine : Routine
  params : Table Value
  warp : Bool

/-- What the telling of a script depends on: the blocks of foreign extensions, what happens while the
code is suspended, and how far to follow. -/
structure Setting where
  foreign : Foreign
  outside : Story → Turn
  fuel : Nat

open Telling

def Scope.value (scope : Scope) (foreign : Foreign) (expr : Expr) : Act Value :=
  eval foreign scope.routine scope.params expr

mutual

/-- What a statement does; `callee` tells what a call of a routine does. -/
def Stmt.tell (setting : Setting) (callee : Scope → Telling Value) (scope : Scope) :
    Stmt → Telling Unit
  | .set var expr => do
      let value ← act (scope.value setting.foreign expr)
      modify (Story.mapTurn fun turn =>
        { turn with host := turn.host.setVariable turn.thread.target var value })
      note (.write var)
  | .change var expr => do
      let amount ← act (scope.value setting.foreign expr)
      modify (Story.mapTurn fun turn =>
        let current := (turn.host.getVariable turn.thread.target var).toNumber
        { turn with host :=
            turn.host.setVariable turn.thread.target var (.number (current + amount.toNumber)) })
      note (.write var)
  | .op opcode args => do
      let values ← act (evalNamed setting.foreign scope.routine scope.params args)
      block setting.foreign setting.outside opcode values setting.fuel .fresh
  | .call signature args => do
      let values ← act (args.mapM (scope.value setting.foreign))
      match ← act (Sequence.resolve signature) with
      | none => goOnIfAlive
      | some routine =>
          let params := bindParams routine.params values
          let warp := scope.warp || Sequence.inWarp signature
          note (.entry signature params warp)
          let _ ← callee ⟨routine, params, warp⟩
          goOnIfAlive
  | .yield => do
      if ← act (Sequence.givesUp scope.warp) then pause setting.outside
  | .times expr body => do
      let count ← act (scope.value setting.foreign expr)
      Telling.times (tellAll setting callee scope body)
        (max 0 (Number.toInteger (Number.roundHalfUp count.toNumber))).toNat
  | .forever body => whilePassed (return true) (tellAll setting callee scope body) setting.fuel
  | .whileTrue cond body =>
      whilePassed (do return (← scope.value setting.foreign cond).toBool)
        (tellAll setting callee scope body) setting.fuel
  | .untilTrue cond body =>
      whilePassed (do return !(← scope.value setting.foreign cond).toBool)
        (tellAll setting callee scope body) setting.fuel
  | .ifElse cond yes no => do
      if (← act (scope.value setting.foreign cond)).toBool then tellAll setting callee scope yes
      else tellAll setting callee scope no
  | .ret none => throw (.returned .empty)
  | .ret (some expr) => do throw (.returned (← act (scope.value setting.foreign expr)))

/-- What statements do, one after the other. -/
def tellAll (setting : Setting) (callee : Scope → Telling Value) (scope : Scope) :
    List Stmt → Telling Unit
  | [] => return
  | stmt :: rest => do
      stmt.tell setting callee scope
      tellAll setting callee scope rest

end

/-- What a call does whose routine has these statements, and its value. -/
def tellCall (foreign : Foreign) (outside : Story → Turn) : (fuel : Nat) → List Stmt → Scope →
    Telling Value
  | 0, _, _ => throw .exhausted
  | fuel + 1, stmts, scope =>
      valueOfCall (tellAll ⟨foreign, outside, fuel⟩
        (fun callee => tellCall foreign outside fuel callee.routine.script.body callee) scope stmts)

/-- What a script does and, if it ends, its value, as far as the fuel reaches. -/
def Script.tell (foreign : Foreign) (outside : Story → Turn) (fuel : Nat) (script : Script)
    (scope : Scope) (turn : Turn) : Except Halt Value × Story :=
  (tellCall foreign outside fuel script.body scope).run.run ⟨turn, []⟩

end StepCode
