import StepCode.Proofs.Routine.Resolving
import StepCode.Proofs.Simulation.Code

/-!
# Interpreted and compiled threads side by side

When the frames of an interpreted script and the calls of a compiled one stand at the same place of
the program.  Levels correspond one to one, except that compiled code has left a loop statement behind
it while its body runs, and that the interpreter comes through the hat or definition first.
-/

namespace StepCode

open Lowering (Place)

/-! ## Levels -/

/-- The instructions that are left for a chain; behind a loop body stands the pause. -/
def Remains (place : Place) (routine : Routine) (first : Option String) (isLoop : Bool)
    (instrs : List Instr) : Prop :=
  ∃ code last, instrs = code ++ last ∧ Code place routine first code ∧
    if isLoop then
      ∃ pause, last = [pause] ∧ Routine.HoldsStmt routine.body place.pause pause ∧
        routine.Supplies place.pause.helperCalls
    else last = []

/-- A loop that is running: what the interpreter keeps with the block, and what happens at the end of
the body `number`. -/
inductive Repeats (state : BlockState) (owner index : Nat) : Instr → Rule → (number : Nat) → Prop
  | times {count : Expr} {number left : Nat} (counter : state.counter = some left) :
      Repeats state owner index (.times count number) (.times left) number
  | forever {number : Nat} : Repeats state owner index (.forever number) (.recheck owner index) number
  | whileTrue {cond : Expr} {number : Nat} :
      Repeats state owner index (.whileTrue cond number) (.recheck owner index) number
  | untilTrue {cond : Expr} {number : Nat} :
      Repeats state owner index (.untilTrue cond number) (.recheck owner index) number

/-- What a level does next. -/
inductive Mode where
  /-- The next block of its chain. -/
  | ready
  /-- The loop whose body `number` runs above it is asked again. -/
  | looping (rule : Rule) (number : Nat)

/-- A frame and a body stand at the same place. -/
inductive Position (place : Place) (routine : Routine) : Mode → Frame → BodyFrame → Prop
  | ready {frame : Frame} {body : BodyFrame} (fresh : frame.state = .fresh)
      (remains : Remains place routine frame.pc frame.isLoop
        ((routine.body body.body).drop body.index)) :
      Position place routine .ready frame body
  | looping {frame : Frame} {body : BodyFrame} {rule : Rule} {number index : Nat} {id : String}
      {block : Block} {instr : Instr} (atLoop : frame.pc = some id)
      (found : place.target.block? id = some block) (instructs : Instructs place routine block instr)
      (behind : body.index = index + 1) (isInstr : routine.instr? body.body index = some instr)
      (repeats : Repeats frame.state body.body index instr rule number)
      (isBody : LoopBody place routine block number)
      (remains : Remains place routine block.next frame.isLoop
        ((routine.body body.body).drop body.index)) :
      Position place routine (.looping rule number) frame body

/-- The parameters of a place are bound to alike values by the innermost procedure among the frames. -/
structure Binds (place : Place) (params : Table Value) (frames : List Frame) : Prop where
  bound : ∀ name ∈ place.params, ∃ value,
    (frames.findSome? Frame.params).bind (·.get? name) = some value ∧
      value.Alike ((params.get? name).getD .empty)
  unbound : ∀ name, name ∉ place.params → (frames.findSome? Frame.params).bind (·.get? name) = none

/-- Frames and calls that stand at the same place, innermost first. -/
inductive Stack (target : Target) : Mode → Place → List Frame → Activation → List Activation → Prop
  | hat {mode : Mode} {place : Place} {routine : Routine} {params : Table Value} {frame : Frame}
      {body : BodyFrame} (position : Position place routine mode frame body)
      (here : place.target = target) (noParams : place.params = []) (noWarp : place.warp = false)
      (plainFrame : frame.isLoop = false ∧ frame.params = none ∧ frame.warp = false)
      (once : body.rule = .once) :
      Stack target mode place [frame] ⟨routine, params, false, [body]⟩ []
  | procedure {mode : Mode} {place other : Place} {routine : Routine} {params table : Table Value}
      {warp : Bool} {frame : Frame} {body : BodyFrame} {frames : List Frame} {call : Activation}
      {callers : List Activation} (position : Position place routine mode frame body)
      (here : place.target = target)
      (isProcedure : frame.isLoop = false ∧ frame.params = some table ∧ frame.warp = warp)
      (binds : Binds place params (frame :: frames)) (inherits : place.warp = true → warp = true)
      (once : body.rule = .once) (caller : Stack target .ready other frames call callers) :
      Stack target mode place (frame :: frames) ⟨routine, params, warp, [body]⟩ (call :: callers)
  | branch {mode : Mode} {place : Place} {routine : Routine} {params : Table Value} {warp : Bool}
      {frame : Frame} {body : BodyFrame} {frames : List Frame} {bodies : List BodyFrame}
      {callers : List Activation} (position : Position place routine mode frame body)
      (isBranch : frame.isLoop = false ∧ frame.params = none ∧ frame.warp = warp)
      (once : body.rule = .once)
      (outer : Stack target .ready place frames ⟨routine, params, warp, bodies⟩ callers) :
      Stack target mode place (frame :: frames) ⟨routine, params, warp, body :: bodies⟩ callers
  | loop {mode : Mode} {place : Place} {routine : Routine} {params : Table Value} {warp : Bool}
      {frame : Frame} {body : BodyFrame} {frames : List Frame} {bodies : List BodyFrame}
      {callers : List Activation} (position : Position place routine mode frame body)
      (isLoop : frame.isLoop = true ∧ frame.params = none ∧ frame.warp = warp)
      (outer : Stack target (.looping body.rule body.body) place frames
        ⟨routine, params, warp, bodies⟩ callers) :
      Stack target mode place (frame :: frames) ⟨routine, params, warp, body :: bodies⟩ callers

namespace Stack

variable {target : Target} {mode other : Mode} {place : Place} {frames : List Frame} {frame : Frame}
  {call : Activation} {callers : List Activation}

/-- The innermost level. -/
theorem exists_head (stack : Stack target mode place frames call callers) :
    ∃ frame rest body bodies, frames = frame :: rest ∧ call.frames = body :: bodies ∧
      frame.warp = call.warp ∧ Position place call.routine mode frame body := by
  cases stack with
  | hat position here noParams noWarp plainFrame once =>
      exact ⟨_, _, _, _, rfl, rfl, plainFrame.2.2, position⟩
  | procedure position here isProcedure binds inherits once caller =>
      exact ⟨_, _, _, _, rfl, rfl, isProcedure.2.2, position⟩
  | branch position isBranch once outer => exact ⟨_, _, _, _, rfl, rfl, isBranch.2.2, position⟩
  | loop position isLoop outer => exact ⟨_, _, _, _, rfl, rfl, isLoop.2.2, position⟩

/-- All levels of a call stand in the same body of code. -/
theorem place_eq (stack : Stack target mode place frames call callers) :
    place.target = target ∧ (place.warp = true → call.warp = true) ∧
      Binds place call.params frames := by
  induction stack with
  | hat position here noParams noWarp plainFrame once =>
      refine ⟨here, fun warp => by simp [noWarp] at warp, ⟨?_, ?_⟩⟩
      · simp [noParams]
      · simp [plainFrame.2.1]
  | procedure position here isProcedure binds inherits once caller _ => exact ⟨here, inherits, binds⟩
  | branch position isBranch once outer ih =>
      obtain ⟨here, inherits, bound, unbound⟩ := ih
      exact ⟨here, inherits, by simpa [isBranch.2.1] using bound, by simpa [isBranch.2.1] using unbound⟩
  | loop position isLoop outer ih =>
      obtain ⟨here, inherits, bound, unbound⟩ := ih
      exact ⟨here, inherits, by simpa [isLoop.2.1] using bound, by simpa [isLoop.2.1] using unbound⟩

/-- The innermost level moves within its chain. -/
theorem move {rest : List Frame} {body : BodyFrame} {bodies : List BodyFrame} {routine : Routine}
    {params : Table Value} {warp : Bool}
    (stack : Stack target mode place (frame :: rest) ⟨routine, params, warp, body :: bodies⟩ callers)
    {pc : Option String} {state : BlockState} {index : Nat}
    (position : Position place routine other { frame with pc := pc, state := state }
      { body with index := index }) :
    Stack target other place ({ frame with pc := pc, state := state } :: rest)
      ⟨routine, params, warp, { body with index := index } :: bodies⟩ callers := by
  cases stack with
  | hat _ here noParams noWarp plainFrame once =>
      exact .hat position here noParams noWarp plainFrame once
  | procedure _ here isProcedure binds inherits once caller =>
      exact .procedure position here isProcedure ⟨binds.bound, binds.unbound⟩ inherits once caller
  | branch _ isBranch once outer => exact .branch position isBranch once outer
  | loop _ isLoop outer => exact .loop position isLoop outer

end Stack

/-! ## Threads -/

/-- A block that does nothing itself; what its slots hold is no reporter. -/
structure Block.Passes (block : Block) : Prop where
  isPass : StandardBlock.ofOpcode? block.opcode = some .pass
  noReporters : ∀ slot ∈ block.readSlots, block.inputBlock? slot = none

/-- The frames of an interpreted script and the compiled code that stands where they stand.  The
timers of the compiled script are late by `shift`. -/
inductive Follows (target : Target) (shift : Nat) : List Frame → Sequence → Prop
  | ready {place : Place} {frames : List Frame} {call : Activation} {callers : List Activation}
      (stack : Stack target .ready place frames call callers) :
      Follows target shift frames ⟨none, call :: callers⟩
  /-- An iteration is over. -/
  | recheck {place : Place} {frames : List Frame} {routine : Routine} {params : Table Value}
      {warp : Bool} {rule : Rule} {number index : Nat} {bodies : List BodyFrame}
      {callers : List Activation}
      (stack : Stack target (.looping rule number) place frames ⟨routine, params, warp, bodies⟩ callers)
      (atEnd : routine.instr? number index = none) :
      Follows target shift frames
        ⟨none, ⟨routine, params, warp, ⟨number, index, rule⟩ :: bodies⟩ :: callers⟩
  /-- The timer of a block is running. -/
  | waiting {place : Place} {frame : Frame} {rest : List Frame} {id : String} {block : Block}
      {args : List (String × Expr)} {op : PendingOp} {started : Nat} {call : Activation}
      {callers : List Activation} (atWait : frame.pc = some id)
      (found : target.block? id = some block) (opcode : block.opcode = "control_wait")
      (arguments : Arguments place call.routine block args) (isOp : op.opcode = "control_wait")
      (leftTimer : frame.state.timer = some started)
      (rightTimer : op.state.timer = some (started + shift))
      (duration : op.state.duration = frame.state.duration)
      (stack : Stack target .ready place ({ frame with pc := block.next, state := .fresh } :: rest) call
        callers) :
      Follows target shift (frame :: rest) ⟨some op, call :: callers⟩
  /-- The interpreter comes through a hat or a definition. -/
  | entering {place : Place} {frame : Frame} {rest : List Frame} {id : String} {block : Block}
      {call : Activation} {callers : List Activation} (atEntry : frame.pc = some id)
      (found : target.block? id = some block) (passes : block.Passes)
      (stack : Stack target .ready place ({ frame with pc := block.next, state := .fresh } :: rest) call
        callers) :
      Follows target shift (frame :: rest) ⟨none, call :: callers⟩
  /-- The interpreter comes through a definition without a body. -/
  | skipping {place : Place} {frame : Frame} {rest : List Frame} {id : String} {block : Block}
      {call : Activation} {callers : List Activation} (atEntry : frame.pc = some id)
      (plainFrame : frame.isLoop = false) (found : target.block? id = some block)
      (passes : block.Passes) (noBody : block.next = none)
      (stack : Stack target .ready place rest call callers) :
      Follows target shift (frame :: rest) ⟨none, call :: callers⟩
  /-- The interpreter leaves a definition without a body. -/
  | leaving {place : Place} {frame : Frame} {rest : List Frame} {call : Activation}
      {callers : List Activation} (atEnd : frame.pc = none) (plainFrame : frame.isLoop = false)
      (stack : Stack target .ready place rest call callers) :
      Follows target shift (frame :: rest) ⟨none, call :: callers⟩

/-! ## Programs -/

/-- How calls are answered in a rebuilt target: by the step code behind the definition, and by nothing
where the procedure is not declared or has no body. -/
structure Answers (before after : Target) : Prop where
  missing : ∀ proccode, before.prototype? proccode = none → after.procedureMarker? proccode = none
  declared : ∀ proccode inner prototype, before.prototype? proccode = some (inner, prototype) →
    ∃ mutation owner definition, prototype.mutation = some mutation ∧ prototype.parent = some owner ∧
      before.block? owner = some definition ∧ definition.Passes ∧
      ((definition.next = none ∧ after.procedureMarker? proccode = none) ∨
        ∃ id text routine, after.procedureMarker? proccode = some (id, text) ∧ after.Carries id text ∧
          Routine.load text (approvedHelpers Helper.shipped) = .ok routine ∧
          routine.params = mutation.names ∧
          Code ⟨before, mutation.names, mutation.isWarp⟩ routine definition.next
            (routine.body Routine.entry))

/-- A program before and after it was rebuilt, how much later the rebuilt one runs, and the ids of its
threads by those of the threads that they follow. -/
structure World where
  befores : List Target
  afters : List Target
  shift : Nat
  rename : Nat → Nat

/-- The same request, made of the threads that follow others. -/
def StopRequest.renamed (rename : Nat → Nat) : StopRequest → StopRequest
  | .all => .all
  | .others target keep => .others target (rename keep)

structure World.Sound (world : World) : Prop where
  plain : ∀ before ∈ world.befores, before.Plain
  answers : ∀ (index : Nat) (before after : Target), world.befores[index]? = some before →
    world.afters[index]? = some after → Answers before after
  /-- No two targets have the same name. -/
  alone : ∀ after ∈ world.afters, ∀ other ∈ world.afters, other.name = after.name → other = after
  renames : Function.Injective world.rename

/-- The hosts during a tick, while their clocks stand still. -/
structure World.Hosts (world : World) (left right : Host) : Prop where
  alike : left.Alike right
  befores : left.targets.map LiveTarget.data = world.befores
  afters : right.targets.map LiveTarget.data = world.afters
  clock : right.now = left.now + world.shift
  still : left.drift = [] ∧ right.drift = []
  leftTick : left.tickStarted = left.now
  rightTick : right.tickStarted = right.now
  errors : right.errors = left.errors
  stops : right.stops = left.stops.map (StopRequest.renamed world.rename)
  noneStarted : left.threads = [] ∧ right.threads = []
  support : ∃ support, right.support = some support ∧
    ∀ after ∈ world.afters, support.Agrees (approvedHelpers Helper.shipped) after

/-- A turn of an interpreted thread and one of its compiled counterpart, whose own frame stands at the
marker. -/
structure World.Turns (world : World) (left right : Turn) : Prop where
  hosts : world.Hosts left.host right.host
  id : right.thread.id = world.rename left.thread.id
  target : right.thread.target = left.thread.target
  topBlock : right.thread.topBlock = left.thread.topBlock
  uncompiled : left.thread.compiled = none
  atMarker : ∃ frame marker block, right.thread.frames = [frame] ∧ frame.pc = some marker ∧
    right.host.block? right.thread.target marker = some block ∧ block.next = none
  running : right.thread.status = .running

/-- The compiled code goes on where the interpreted thread does. -/
structure World.Matches (world : World) (left : Turn) (sequence : Sequence) (right : Turn) : Prop where
  turns : world.Turns left right
  leftRunning : left.thread.status = .running
  follows : ∃ before, world.befores[left.thread.target]? = some before ∧
    Follows before world.shift left.thread.frames sequence

end StepCode
