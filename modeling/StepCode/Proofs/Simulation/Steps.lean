import StepCode.Proofs.Operation.Needs
import StepCode.Proofs.Routine.Running
import StepCode.Proofs.Simulation.Matching

/-!
# Single steps

What a step of the block interpreter and a step of compiled code do to matching turns, and what it
means for compiled code to keep up with a step of the interpreter.
-/

namespace StepCode

open Lowering (Place)

/-! ## Hosts -/

theorem Host.block?_eq (host : Host) (index : Nat) (id : String) :
    host.block? index id = ((host.targets.map LiveTarget.data)[index]?).bind (·.block? id) := by
  rw [Host.block?, List.getElem?_map]
  cases host.targets[index]? <;> rfl

/-- A clock that stands still. -/
theorem Host.readClock_of_still {host : Host} (still : host.drift = []) : host.readClock = host := by
  cases host
  obtain rfl : _ = [] := still
  rfl

namespace World.Hosts

variable {world : World} {left right : Host} {value other : Value}

theorem block?_left (hosts : world.Hosts left right) (index : Nat) (id : String) :
    left.block? index id = (world.befores[index]?).bind (·.block? id) := by
  rw [Host.block?_eq, hosts.befores]

theorem block?_right (hosts : world.Hosts left right) (index : Nat) (id : String) :
    right.block? index id = (world.afters[index]?).bind (·.block? id) := by
  rw [Host.block?_eq, hosts.afters]

theorem readClock_left (hosts : world.Hosts left right) : left.readClock = left :=
  Host.readClock_of_still hosts.still.1

theorem readClock_right (hosts : world.Hosts left right) : right.readClock = right :=
  Host.readClock_of_still hosts.still.2

/-- No tick is overdue. -/
theorem isOverdue_eq (hosts : world.Hosts left right) :
    left.isOverdue = false ∧ right.isOverdue = false := by
  simp [Host.isOverdue, Host.tickAge, hosts.leftTick, hosts.rightTick]

theorem setVariable (hosts : world.Hosts left right) (target : Nat) (name : String)
    (values : value.Alike other) :
    world.Hosts (left.setVariable target name value) (right.setVariable target name other) :=
  { hosts with
    alike := hosts.alike.setVariable target name values
    befores := (left.data_setVariable target name value).trans hosts.befores
    afters := (right.data_setVariable target name other).trans hosts.afters }

theorem say (hosts : world.Hosts left right) (target : Nat) (message : String) :
    world.Hosts (left.say target message) (right.say target message) :=
  { hosts with
    alike := hosts.alike.say target message
    befores := (left.data_say target message).trans hosts.befores
    afters := (right.data_say target message).trans hosts.afters }

theorem requestStop (hosts : world.Hosts left right) (stop : StopRequest) :
    world.Hosts (left.requestStop stop) (right.requestStop (stop.renamed world.rename)) :=
  { hosts with
    alike := hosts.alike
    stops := by simp [Host.requestStop, hosts.stops] }

end World.Hosts

/-! ## The block interpreter -/

/-- The turn goes on with these frames, and the host has changed to `host`. -/
def Turn.onward (turn : Turn) (host : Host) (frames : List Frame) : Turn :=
  ⟨host, { turn.thread with frames := frames }⟩

/-- A block whose slots are read does what it does with their values. -/
theorem runBlockAt_of_performs {foreign : Foreign} {depth : Nat} {left : Turn} {id : String}
    {block : Block} {args : Table Value} {value : Value} {call : Call}
    (found : left.host.block? left.thread.target id = some block)
    (yields : Yields (readArgs (readSlot foreign depth block) block) left args)
    (performs : (dispatch foreign block.opcode args).perform (.block id) left.thread.blockState left =
      (.ok value, call)) :
    (runBlockAt foreign depth id).run.run left =
      let last : Turn := ⟨call.host, call.thread.mapFrame fun frame => { frame with state := call.state }⟩
      (.ok (Flow.ofSignals last block args call.signals), last) := by
  have reading : Yields (ε := Fault) (get : Reading Turn) left left := rfl
  unfold runBlockAt
  rw [reading.run_bind]
  simp only [found]
  rw [yields.run_bind, reading.run_bind, performs]
  rfl

/-- A block that runs decides how its thread goes on. -/
theorem interpretStep?_of_runs {foreign : Foreign} {depth : Nat} {left after : Turn} {frame : Frame}
    {rest : List Frame} {id : String} {flow : Flow} (frames : left.thread.frames = frame :: rest)
    (pc : frame.pc = some id) (runs : (runBlockAt foreign depth id).run.run left = (.ok flow, after)) :
    interpretStep? foreign depth left = some (flow.apply after) := by
  unfold interpretStep?
  simp only [frames, pc, runs]

/-- A block whose slots are read does what follows from its signals. -/
theorem interpretStep?_block {foreign : Foreign} {depth : Nat} {left : Turn} {frame : Frame}
    {rest : List Frame} {id : String} {block : Block} {args : Table Value} {value : Value}
    {call : Call} {result : Turn × Bool} (frames : left.thread.frames = frame :: rest)
    (pc : frame.pc = some id) (found : left.host.block? left.thread.target id = some block)
    (reads : Reads (readArgs (readSlot foreign depth block) block) left args)
    (performs : (dispatch foreign block.opcode args).perform (.block id) frame.state left =
      (.ok value, call))
    (step : interpretStep? foreign depth left = some result) :
    result = (Flow.ofSignals
        ⟨call.host, call.thread.mapFrame fun frame => { frame with state := call.state }⟩
        block args call.signals).apply
      ⟨call.host, call.thread.mapFrame fun frame => { frame with state := call.state }⟩ := by
  have state : left.thread.blockState = frame.state := by simp [Thread.blockState, frames]
  rcases reads with deep | yields
  · have reading : Yields (ε := Fault) (get : Reading Turn) left left := rfl
    unfold interpretStep? at step
    simp only [frames, pc] at step
    unfold runBlockAt at step
    rw [reading.run_bind] at step
    simp only [found] at step
    rw [ExceptT.run_bind, StateT.run_bind, deep] at step
    cases step
  · rw [← state] at performs
    have runs := runBlockAt_of_performs found yields performs
    exact Option.some.inj (step.symm.trans (interpretStep?_of_runs frames pc runs))

/-- A standard block does what it does wherever it is met. -/
theorem dispatch_standard (foreign : Foreign) {opcode : String} {block : StandardBlock}
    (isStandard : StandardBlock.ofOpcode? opcode = some block) (args : Table Value) :
    dispatch foreign opcode args = block.run args := by
  unfold dispatch
  rw [isStandard]

/-- A standard block that leaves its thread as it is. -/
theorem interpretStep?_standard {foreign : Foreign} {depth : Nat} {left : Turn} {frame : Frame}
    {rest : List Frame} {id : String} {block : Block} {standard : StandardBlock} {args : Table Value}
    {value : Value} {host : Host} {site : Site} {state : BlockState} {signals : Signals}
    {result : Turn × Bool} (frames : left.thread.frames = frame :: rest) (pc : frame.pc = some id)
    (found : left.host.block? left.thread.target id = some block)
    (reads : Reads (readArgs (readSlot foreign depth block) block) left args)
    (isStandard : StandardBlock.ofOpcode? block.opcode = some standard)
    (performs : (standard.run args).perform (.block id) frame.state left =
      (.ok value, ⟨⟨host, left.thread⟩, site, state, signals⟩))
    (step : interpretStep? foreign depth left = some result) :
    result = (Flow.ofSignals (left.onward host ({ frame with state := state } :: rest)) block args
      signals).apply (left.onward host ({ frame with state := state } :: rest)) := by
  rw [← dispatch_standard foreign isStandard] at performs
  have isResult := interpretStep?_block frames pc found reads performs step
  simpa only [Thread.mapFrame, frames, Turn.onward] using isResult

theorem moveOn_onward {left : Turn} {host : Host} {frame : Frame} {rest : List Frame} {id : String}
    {block : Block} (pc : frame.pc = some id)
    (found : host.block? left.thread.target id = some block) :
    (left.onward host (frame :: rest)).moveOn =
      left.onward host ({ frame with pc := block.next, state := .fresh } :: rest) := by
  simp [Turn.moveOn, Turn.onward, Thread.mapFrame, pc, found]

/-- The signals of a block on a thread that goes on. -/
theorem ofSignals_eq {turn : Turn} (running : turn.thread.status = .running) {block : Block}
    {args : Table Value} {signals : Signals} {host : Host} {frames : List Frame} :
    Flow.ofSignals (turn.onward host frames) block args signals =
      if signals.stopScript then .leave
      else if signals.rerun then .stay
      else
        match signals.branch with
        | some (number, isLoop) => .branch (block.inputBlock? (Flow.branchSlot number)) isLoop
        | none =>
            (signals.procedure.bind (Flow.call? (turn.onward host frames) block args)).getD .next := by
  simp only [Flow.ofSignals, Thread.isDone, Turn.onward, running]
  rfl

/-- A block without signals is followed by the next one. -/
theorem interpretStep?_next {foreign : Foreign} {depth : Nat} {left : Turn} {frame : Frame}
    {rest : List Frame} {id : String} {block : Block} {standard : StandardBlock} {args : Table Value}
    {value : Value} {host : Host} {site : Site} {state : BlockState} {result : Turn × Bool}
    (running : left.thread.status = .running) (frames : left.thread.frames = frame :: rest)
    (pc : frame.pc = some id) (found : left.host.block? left.thread.target id = some block)
    (reads : Reads (readArgs (readSlot foreign depth block) block) left args)
    (isStandard : StandardBlock.ofOpcode? block.opcode = some standard)
    (performs : (standard.run args).perform (.block id) frame.state left =
      (.ok value, ⟨⟨host, left.thread⟩, site, state, .none⟩))
    (still : host.block? left.thread.target id = some block)
    (step : interpretStep? foreign depth left = some result) :
    result = (left.onward host ({ frame with pc := block.next, state := .fresh } :: rest), true) := by
  rw [interpretStep?_standard frames pc found reads isStandard performs step,
    ofSignals_eq running, ← moveOn_onward (by exact pc) still]
  rfl

/-! ## Keeping up -/

/-- The script has ended.  Compiled code has ended with it, or has found its thread ended. -/
structure World.Ended (world : World) (left : Turn) (rest : Rest) (right : Turn) : Prop where
  hosts : world.Hosts left.host right.host
  id : right.thread.id = world.rename left.thread.id
  target : right.thread.target = left.thread.target
  topBlock : right.thread.topBlock = left.thread.topBlock
  leftEnded : left.thread = left.thread.retire
  rightEnded : (rest = .retired ∧ right.thread = right.thread.retire) ∨
    (∃ value, rest = .ended value) ∧ right.thread.status = .running ∧
      ∃ frame marker block, right.thread.frames = [frame] ∧ frame.pc = some marker ∧
        right.host.block? right.thread.target marker = some block ∧ block.next = none

/-- Compiled code keeps up with a step of the interpreter that led to `left`: after some steps of its
own it is where the interpreter is, whether the thread goes on in this tick or not. -/
inductive KeepsUp (world : World) (foreign : Foreign) (left : Turn) : Bool → Sequence → Turn → Prop
  | goes {sequence : Sequence} {right : Turn} (follow : world.Matches left sequence right) :
      KeepsUp world foreign left true sequence right
  | rests {sequence next : Sequence} {right after : Turn}
      (step : (sequence.step foreign).run.run right = (.ok (.rest (.suspended next)), after))
      (yielded : left.thread.status = .yielded)
      (follow : world.Matches { left with thread := left.thread.wake } next after) :
      KeepsUp world foreign left false sequence right
  | ends {goesOn : Bool} {sequence : Sequence} {rest : Rest} {right after : Turn}
      (step : (sequence.step foreign).run.run right = (.ok (.rest rest), after))
      (ended : world.Ended left rest after) :
      KeepsUp world foreign left goesOn sequence right
  | steps {goesOn : Bool} {sequence next : Sequence} {right after : Turn}
      (step : (sequence.step foreign).run.run right = (.ok (.more next), after))
      (later : KeepsUp world foreign left goesOn next after) :
      KeepsUp world foreign left goesOn sequence right

/-! ## Compiled code -/

section

variable {foreign : Foreign} {routine : Routine} {params : Table Value} {warp : Bool}
  {body : BodyFrame} {bodies : List BodyFrame} {callers : List Activation} {right : Turn}

/-- A body that has come to its end runs again. -/
theorem step_repeat {rule : Rule} (atEnd : routine.instr? body.body body.index = none)
    (isAgain : Yields (Sequence.again foreign ⟨routine, params, warp, body :: bodies⟩ body.rule) right
      (some rule)) :
    (Sequence.step foreign ⟨none, ⟨routine, params, warp, body :: bodies⟩ :: callers⟩).run.run right =
      (.ok (.more ⟨none, ⟨routine, params, warp, ⟨body.body, 0, rule⟩ :: bodies⟩ :: callers⟩), right) := by
  rw [Sequence.step, Sequence.resume_end rfl atEnd, bind_assoc, isAgain.run_bind]
  rfl

/-- A body that has come to its end is left. -/
theorem step_pop (atEnd : routine.instr? body.body body.index = none)
    (isAgain : Yields (Sequence.again foreign ⟨routine, params, warp, body :: bodies⟩ body.rule) right
      none) :
    (Sequence.step foreign ⟨none, ⟨routine, params, warp, body :: bodies⟩ :: callers⟩).run.run right =
      (.ok (.more ⟨none, ⟨routine, params, warp, bodies⟩ :: callers⟩), right) := by
  rw [Sequence.step, Sequence.resume_end rfl atEnd, bind_assoc, isAgain.run_bind]
  rfl

/-- The last call has ended, and the code with it. -/
theorem run_leave_last (value : Value) :
    (Sequence.leave value [] >>= Sequence.heed).run.run right = (.ok (.rest (.ended value)), right) := rfl

/-- A call has ended, and its caller goes on. -/
theorem run_leave_caller (running : right.thread.status = .running) (value : Value)
    (caller : Activation) (callers : List Activation) :
    (Sequence.leave value (caller :: callers) >>= Sequence.heed).run.run right =
      (.ok (.more ⟨none, caller :: callers⟩), right) := by
  rw [Sequence.run_leave_heed, if_neg (by simp [Thread.isDone, running])]

end

/-! ## Turns -/

namespace World.Turns

variable {world : World} {left right : Turn} {host other : Host}

/-- The frames and the hosts change on both sides in the same way. -/
theorem onward (turns : world.Turns left right) (hosts : world.Hosts host other)
    (frames : List Frame) : world.Turns (left.onward host frames) ⟨other, right.thread⟩ := by
  refine ⟨hosts, turns.id, turns.target, turns.topBlock, turns.uncompiled, ?_, turns.running⟩
  obtain ⟨frame, marker, block, isFrame, pc, found, last⟩ := turns.atMarker
  refine ⟨frame, marker, block, isFrame, pc, ?_, last⟩
  rw [hosts.block?_right, ← turns.hosts.block?_right]
  exact found

/-- Expressions of a body are evaluated where its parameters are bound. -/
theorem scene (turns : world.Turns left right) {before : Target}
    (isBefore : world.befores[left.thread.target]? = some before) {place : Place}
    (here : place.target = before) {params : Table Value}
    (binds : Binds place params left.thread.frames) : Scene place params left right := by
  subst here
  refine ⟨turns.target, turns.hosts.alike, fun id => ?_, ?_, ?_, by simp [turns.running]⟩
  · rw [turns.hosts.block?_left, isBefore, Option.bind_some]
  · exact binds.bound
  · exact binds.unbound

end World.Turns

end StepCode
