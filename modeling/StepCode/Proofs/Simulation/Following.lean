import StepCode.Proofs.Simulation.Loops
import StepCode.Proofs.Simulation.Procedures

/-!
# Every step is followed

Whatever the interpreter does in one step, compiled code that stands where it stands keeps up.
-/

namespace StepCode

open Lowering (Place)

section

variable {world : World} {foreign : Foreign} {depth : Nat} {before : Target} {place : Place}
  {frame : Frame} {rest : List Frame} {left right : Turn} {call : Activation}
  {callers : List Activation} {result : Turn × Bool}

/-! ## Ends of chains -/

theorem interpretStep?_atEnd (frames : left.thread.frames = frame :: rest) (pc : frame.pc = none)
    (step : interpretStep? foreign depth left = some result) : result = left.leaveFrame := by
  unfold interpretStep? at step
  simp only [frames, pc] at step
  exact (Option.some.inj step).symm

theorem leaveFrame_last (frames : left.thread.frames = [frame]) :
    left.leaveFrame = (left.retire, false) := by
  unfold Turn.leaveFrame
  rw [frames]

theorem leaveFrame_inner {outer : Frame} {others : List Frame}
    (frames : left.thread.frames = frame :: outer :: others) :
    left.leaveFrame =
      if frame.isLoop then (left.onward left.host (outer :: others)).iterationOver
      else (left.onward left.host (outer :: others), true) := by
  unfold Turn.leaveFrame
  rw [frames]
  rfl

/-- At the end of a chain nothing is left but the pause of a loop. -/
theorem Position.atEnd {routine : Routine} {body : BodyFrame}
    (position : Position place routine .ready frame body) (pc : frame.pc = none) :
    if frame.isLoop then ∃ pause, (routine.body body.body).drop body.index = [pause] ∧
        Routine.HoldsStmt routine.body place.pause pause ∧ routine.Supplies place.pause.helperCalls
    else routine.instr? body.body body.index = none := by
  cases position with
  | ready fresh remains =>
      obtain ⟨code, last, isInstrs, isCode, isLast⟩ := remains
      rw [pc] at isCode
      obtain rfl := isCode.nil
      rw [List.nil_append] at isInstrs
      split at isLast
      next isLoop =>
        obtain ⟨pause, rfl, holds, supplied⟩ := isLast
        rw [if_pos isLoop]
        exact ⟨pause, isInstrs, holds, supplied⟩
      next notLoop =>
        rw [if_neg notLoop]
        rw [Routine.instr?, ← List.head?_drop, isInstrs, isLast]
        rfl

/-- Compiled code has come to the end of its outermost body. -/
theorem step_emptied {routine : Routine} {params : Table Value} {warp : Bool} :
    (Sequence.step foreign ⟨none, ⟨routine, params, warp, []⟩ :: callers⟩).run.run right =
      (Sequence.leave .empty callers >>= Sequence.heed).run.run right := rfl

theorem keepsUp_atEnd (turns : world.Turns left right) (running : left.thread.status = .running)
    (isTarget : world.befores[left.thread.target]? = some before)
    (frames : left.thread.frames = frame :: rest) (pc : frame.pc = none)
    (stack : Stack before .ready place (frame :: rest) call callers)
    (step : interpretStep? foreign depth left = some result) :
    KeepsUp world foreign result.1 result.2 ⟨none, call :: callers⟩ right := by
  obtain rfl := interpretStep?_atEnd frames pc step
  cases stack with
  | hat position here noParams noWarp plainFrame once =>
      have atEnd := position.atEnd pc
      rw [plainFrame.1, if_neg (by decide)] at atEnd
      rw [leaveFrame_last frames]
      refine .steps (step_pop atEnd (once ▸ .pure _ _))
        (.ends (step_emptied.trans (run_leave_last _)) ?_)
      exact ⟨turns.hosts, turns.id, turns.target, turns.topBlock, rfl,
        .inr ⟨⟨_, rfl⟩, turns.running, turns.atMarker⟩⟩
  | procedure position here isProcedure binds inherits once caller =>
      have atEnd := position.atEnd pc
      rw [isProcedure.1, if_neg (by decide)] at atEnd
      obtain ⟨outer, others, _, _, rfl, -⟩ := caller.exists_head
      rw [leaveFrame_inner frames, isProcedure.1, if_neg (by decide)]
      refine .steps (step_pop atEnd (once ▸ .pure _ _))
        (.steps (step_emptied.trans (run_leave_caller turns.running _ _ _)) (.goes ?_))
      exact ⟨turns.onward turns.hosts _, running, before, isTarget, .ready caller⟩
  | branch position isBranch once outer =>
      have atEnd := position.atEnd pc
      rw [isBranch.1, if_neg (by decide)] at atEnd
      obtain ⟨frame, others, _, _, rfl, -⟩ := outer.exists_head
      rw [leaveFrame_inner frames, isBranch.1, if_neg (by decide)]
      refine .steps (step_pop atEnd (once ▸ .pure _ _)) (.goes ?_)
      exact ⟨turns.onward turns.hosts _, running, before, isTarget, .ready outer⟩
  | @loop _ _ routine params warp _ body _ bodies _ position isLoop outer =>
      have atEnd := position.atEnd pc
      rw [isLoop.1, if_pos rfl] at atEnd
      obtain ⟨pause, isPause, holds, supplied⟩ := atEnd
      obtain ⟨frame, others, _, _, rfl, -⟩ := outer.exists_head
      rw [leaveFrame_inner frames, isLoop.1, if_pos rfl]
      obtain rfl := outer.place_eq.1
      have here : routine.instr? body.body body.index = some pause := by
        rw [Routine.instr?, ← List.head?_drop, isPause]
        rfl
      have last : routine.instr? body.body (body.index + 1) = none := by
        rw [Routine.instr?, ← List.head?_drop, ← List.tail_drop, isPause]
        rfl
      exact keepsUp_pause (turns.onward turns.hosts _) running isTarget rfl outer here last holds supplied

/-! ## Blocks -/

/-- A chain that is not at its end: the block, its instruction, and what is left behind them. -/
theorem Position.exists_block {routine : Routine} {body : BodyFrame} {id : String}
    (plain : place.target.Plain) (position : Position place routine .ready frame body)
    (pc : frame.pc = some id) :
    ∃ block instr, place.target.block? id = some block ∧ Instructs place routine block instr ∧
      routine.instr? body.body body.index = some instr ∧ frame.state = .fresh ∧
      Remains place routine block.next frame.isLoop
        ((routine.body body.body).drop (body.index + 1)) := by
  cases position with
  | ready fresh remains =>
      obtain ⟨code, last, isInstrs, isCode, isLast⟩ := remains
      rw [pc] at isCode
      obtain ⟨block, instr, others, found, instructs, rfl, behind⟩ := isCode.cons plain
      refine ⟨block, instr, found, instructs, ?_, fresh, others, last, ?_, behind, isLast⟩
      · rw [Routine.instr?, ← List.head?_drop, isInstrs]
        rfl
      · rw [← List.tail_drop, isInstrs]
        rfl

theorem keepsUp_block {id : String} (sound : world.Sound) (turns : world.Turns left right)
    (running : left.thread.status = .running)
    (isTarget : world.befores[left.thread.target]? = some before)
    (frames : left.thread.frames = frame :: rest) (pc : frame.pc = some id)
    (stack : Stack before .ready place (frame :: rest) call callers)
    (step : interpretStep? foreign depth left = some result) :
    KeepsUp world foreign result.1 result.2 ⟨none, call :: callers⟩ right := by
  obtain ⟨rfl, -, binds⟩ := stack.place_eq
  have plain := sound.plain _ (List.mem_of_getElem? isTarget)
  obtain ⟨routine, params, warp, levels⟩ := call
  obtain ⟨_, _, body, bodies, isFrames, rfl, -, position⟩ := stack.exists_head
  obtain ⟨rfl, -⟩ := List.cons.inj isFrames
  obtain ⟨block, instr, found, instructs, isInstr, fresh, remains⟩ := position.exists_block plain pc
  have faces : world.Faces place params id block frame rest left right :=
    ⟨turns, running, isTarget, plain, frames, pc, found, frames ▸ binds⟩
  have behind : Stack place.target .ready place ({ frame with pc := block.next, state := .fresh } :: rest)
      ⟨routine, params, warp, { body with index := body.index + 1 } :: bodies⟩ callers :=
    stack.move (.ready rfl remains)
  cases instructs with
  | set opcode named noSlot operands =>
      exact keepsUp_set faces opcode named noSlot operands isInstr behind step
  | change opcode named noSlot operands =>
      exact keepsUp_change faces opcode named noSlot operands isInstr behind step
  | times opcode operands isBody =>
      exact keepsUp_times faces stack fresh opcode operands isBody isInstr remains step
  | forever opcode operands isBody =>
      exact keepsUp_forever faces stack opcode operands isBody isInstr remains step
  | untilTrue opcode operands isBody =>
      exact keepsUp_untilTrue faces stack opcode operands isBody isInstr remains step
  | whileTrue opcode operands isBody =>
      exact keepsUp_whileTrue faces stack opcode operands isBody isInstr remains step
  | ifTrue opcode operands isYes isNo =>
      exact keepsUp_ifTrue faces opcode operands isYes isNo isInstr behind step
  | ifElse opcode operands isYes isNo =>
      exact keepsUp_ifElse faces opcode operands isYes isNo isInstr behind step
  | ret opcode option noSlot => exact keepsUp_ret faces stack opcode option noSlot isInstr step
  | stop opcode isOption other noSlot arguments =>
      rcases List.mem_cons.mp other with rfl | others
      · exact keepsUp_stopAll faces opcode isOption noSlot arguments isInstr step
      · exact keepsUp_stopOthers faces opcode isOption others noSlot arguments isInstr behind step
  | wait opcode arguments => exact keepsUp_wait faces opcode fresh arguments isInstr behind step
  | say opcode arguments => exact keepsUp_say faces opcode arguments isInstr behind step
  | call opcode mutated named operands =>
      exact keepsUp_call sound faces opcode mutated named operands isInstr behind step

/-! ## Hats and definitions -/

/-- The slots of a hat or definition hold no reporters. -/
theorem Block.Passes.yields {block : Block} (passes : block.Passes) (foreign : Foreign) (depth : Nat)
    (turn : Turn) : ∃ args, Yields (readArgs (readSlot foreign depth block) block) turn args := by
  have each : ∀ name, ∃ value, name ∈ block.readSlots →
      Yields (readSlot foreign depth block name) turn value := by
    intro name
    unfold readSlot readSlotWith
    cases held : block.input? name with
    | none => exact ⟨.empty, fun _ => .pure _ _⟩
    | some input =>
        cases input with
        | empty => exact ⟨.empty, fun _ => .pure _ _⟩
        | literal kind payload => exact ⟨literalValue kind payload turn, fun _ => rfl⟩
        | block inner =>
            refine ⟨.empty, fun mem => ?_⟩
            have noReporter := passes.noReporters name mem
            simp [Block.inputBlock?, held] at noReporter
  choose values yields using each
  exact ⟨block.args values, readArgs_yields yields⟩

/-- The interpreter comes through a hat or definition, however deep it may read. -/
theorem interpretStep?_of_passes {id : String} {block : Block} (passes : block.Passes)
    (running : left.thread.status = .running) (frames : left.thread.frames = frame :: rest)
    (pc : frame.pc = some id) (found : left.host.block? left.thread.target id = some block) :
    interpretStep? foreign depth left =
      some (left.onward left.host ({ frame with pc := block.next, state := .fresh } :: rest), true) := by
  obtain ⟨args, yields⟩ := passes.yields foreign depth left
  have nothing : (dispatch foreign block.opcode args).perform (.block id) left.thread.blockState left =
      (.ok .empty, ⟨left, .block id, left.thread.blockState, .none⟩) := by
    rw [dispatch_standard foreign passes.isPass]
    rfl
  have stepped := interpretStep?_of_runs frames pc (runBlockAt_of_performs found yields nothing)
  rw [stepped, ← interpretStep?_next running frames pc found (.inr yields) passes.isPass rfl found stepped]

theorem interpretStep?_passes {id : String} {block : Block} (passes : block.Passes)
    (running : left.thread.status = .running) (frames : left.thread.frames = frame :: rest)
    (pc : frame.pc = some id) (found : left.host.block? left.thread.target id = some block)
    (step : interpretStep? foreign depth left = some result) :
    result =
      (left.onward left.host ({ frame with pc := block.next, state := .fresh } :: rest), true) :=
  Option.some.inj (step.symm.trans (interpretStep?_of_passes passes running frames pc found))

/-! ## All steps -/

/-- Compiled code keeps up with every step of the interpreter. -/
theorem World.Matches.keepsUp (sound : world.Sound) {sequence : Sequence}
    (follow : world.Matches left sequence right)
    (step : interpretStep? foreign depth left = some result) :
    KeepsUp world foreign result.1 result.2 sequence right := by
  obtain ⟨turns, running, before, isTarget, follows⟩ := follow
  generalize isFrames : left.thread.frames = frames at follows
  cases follows with
  | ready stack =>
      obtain ⟨frame, rest, _, _, rfl, -⟩ := stack.exists_head
      cases pc : frame.pc with
      | none => exact keepsUp_atEnd turns running isTarget isFrames pc stack step
      | some id => exact keepsUp_block sound turns running isTarget isFrames pc stack step
  | recheck stack atEnd =>
      obtain ⟨frame, rest, body, bodies, rfl, rfl, -, position⟩ := stack.exists_head
      obtain ⟨rfl, -, binds⟩ := stack.place_eq
      cases position with
      | looping atLoop found instructs isBehind isInstr repeats isBody remains =>
          have plain := sound.plain _ (List.mem_of_getElem? isTarget)
          exact keepsUp_recheck
            ⟨turns, running, isTarget, plain, isFrames, atLoop, found, isFrames ▸ binds⟩ stack atEnd
            instructs isBehind isInstr repeats isBody remains step
  | waiting atWait found opcode arguments isOp leftTimer rightTimer duration stack =>
      obtain ⟨rfl, -, bound, unbound⟩ := stack.place_eq
      have plain := sound.plain _ (List.mem_of_getElem? isTarget)
      exact keepsUp_awaited
        ⟨turns, running, isTarget, plain, isFrames, atWait, found, isFrames ▸ ⟨bound, unbound⟩⟩ opcode
        arguments isOp leftTimer rightTimer duration stack step
  | entering atEntry found passes stack =>
      obtain rfl := interpretStep?_passes passes running isFrames atEntry
        (turns.hosts.found_left isTarget found) step
      exact .goes ⟨turns.onward turns.hosts _, running, before, isTarget, .ready stack⟩
  | skipping atEntry plainFrame found passes noBody stack =>
      obtain rfl := interpretStep?_passes passes running isFrames atEntry
        (turns.hosts.found_left isTarget found) step
      exact .goes ⟨turns.onward turns.hosts _, running, before, isTarget,
        .leaving noBody plainFrame stack⟩
  | leaving atEnd plainFrame stack =>
      obtain rfl := interpretStep?_atEnd isFrames atEnd step
      obtain ⟨frame, others, _, _, rfl, -⟩ := stack.exists_head
      rw [leaveFrame_inner isFrames, plainFrame, if_neg (by decide)]
      exact .goes ⟨turns.onward turns.hosts _, running, before, isTarget, .ready stack⟩

end

end StepCode
