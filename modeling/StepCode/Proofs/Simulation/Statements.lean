import StepCode.Proofs.Simulation.Steps

namespace StepCode

open Lowering (Place)

/-- The interpreter is at a block of the body of `place`, and compiled code in the same body. -/
structure World.Faces (world : World) (place : Place) (params : Table Value) (id : String)
    (block : Block) (frame : Frame) (rest : List Frame) (left right : Turn) : Prop where
  turns : world.Turns left right
  running : left.thread.status = .running
  isTarget : world.befores[left.thread.target]? = some place.target
  plain : place.target.Plain
  frames : left.thread.frames = frame :: rest
  pc : frame.pc = some id
  found : place.target.block? id = some block
  binds : Binds place params left.thread.frames

section

variable {world : World} {foreign : Foreign} {depth : Nat} {place : Place} {params : Table Value}
  {id : String} {block : Block} {frame : Frame} {rest : List Frame} {left right : Turn}
  {routine : Routine} {warp : Bool} {body : BodyFrame} {bodies : List BodyFrame}
  {callers : List Activation} {result : Turn × Bool}

/-- The innermost frame and the innermost call run in warp or outside of it together. -/
theorem Stack.warp_eq {target : Target} {mode : Mode} {call : Activation}
    (stack : Stack target mode place (frame :: rest) call callers) : frame.warp = call.warp := by
  obtain ⟨_, _, _, _, isFrames, -, same, -⟩ := stack.exists_head
  obtain ⟨rfl, -⟩ := List.cons.inj isFrames
  exact same

theorem World.Hosts.found_left {host other : Host} (hosts : world.Hosts host other) {index : Nat}
    {before : Target} (isTarget : world.befores[index]? = some before)
    (found : before.block? id = some block) : host.block? index id = some block := by
  rw [hosts.block?_left, isTarget, Option.bind_some]
  exact found

namespace World.Faces

theorem scene (faces : world.Faces place params id block frame rest left right) :
    Scene place params left right :=
  faces.turns.scene faces.isTarget rfl faces.binds

theorem found_left (faces : world.Faces place params id block frame rest left right) :
    left.host.block? left.thread.target id = some block :=
  faces.turns.hosts.found_left faces.isTarget faces.found

/-- What the interpreter reads in the slots of the block, and what compiled code evaluates for them. -/
theorem operands (faces : world.Faces place params id block frame rest left right) (foreign : Foreign)
    {slots : List String} {exprs : List Expr} (operands : Operands place routine block slots exprs) :
    ∃ values others : String → Value,
      (∀ depth, Reads (readArgs (readSlot foreign depth block) block) left (block.args values)) ∧
      (∀ slot ∈ slots, (((block.args values).get? slot).getD .empty).Alike (others slot)) ∧
      List.Forall₂ (fun expr value => Yields (eval foreign routine params expr) right value) exprs
        (slots.map others) := by
  obtain ⟨lowerDepth, lowered⟩ := operands.lowered
  obtain ⟨values, others, alike, reads, yields⟩ := exists_operands faces.scene
    (reported_agrees faces.scene faces.plain.goesDown lowerDepth)
    (fun slot mem => faces.plain.slotsHold faces.found slot (operands.readable slot mem).1) lowered
    operands.supplied
  refine ⟨values, others, fun depth => readArgs_reads fun slot mem => ?_, fun slot mem => ?_, yields⟩
  · exact (reads slot (operands.all slot mem) depth).1
  · rw [arg_slot (operands.readable slot mem).1 (operands.readable slot mem).2 (reads slot mem)]
    exact alike slot mem

/-- The same for a block with one slot. -/
theorem operand (faces : world.Faces place params id block frame rest left right) (foreign : Foreign)
    {slot : String} {expr : Expr} (operands : Operands place routine block [slot] [expr]) :
    ∃ (values : String → Value) (other : Value),
      (∀ depth, Reads (readArgs (readSlot foreign depth block) block) left (block.args values)) ∧
      (((block.args values).get? slot).getD .empty).Alike other ∧
      Yields (eval foreign routine params expr) right other := by
  obtain ⟨values, others, reads, alike, yields⟩ := faces.operands foreign operands
  cases yields with
  | cons first _ => exact ⟨values, others slot, reads, alike slot (by simp), first⟩

/-- What the interpreter reads for a block that step code calls, and the arguments of the call. -/
theorem arguments (faces : world.Faces place params id block frame rest left right)
    (foreign : Foreign) {args : List (String × Expr)}
    (arguments : Arguments place routine block args) :
    ∃ (values : String → Value) (others : Table Value),
      (∀ depth, Reads (readArgs (readSlot foreign depth block) block) left (block.args values)) ∧
      (block.args values).Alike others ∧
      Yields (evalNamed foreign routine params args) right others := by
  obtain ⟨lowerDepth, lowered⟩ := arguments.lowered
  obtain ⟨values, others, pairs, alike, reads, yields, isArgs⟩ := arguments_agree faces.scene
    (reported_agrees faces.scene faces.plain.goesDown lowerDepth) (faces.plain.slotsHold faces.found)
    arguments.readable arguments.textual lowered arguments.supplied
  refine ⟨values, block.args others,
    fun depth => readArgs_reads fun slot mem => (reads slot mem depth).1, alike, ?_⟩
  rw [← isArgs]
  exact yields.bind (.pure _ _)

end World.Faces

/-- Compiled code runs its next instruction. -/
theorem step_instr {instr : Instr} (isInstr : routine.instr? body.body body.index = some instr) :
    (Sequence.step foreign ⟨none, ⟨routine, params, warp, body :: bodies⟩ :: callers⟩).run.run right =
      (Sequence.execute foreign
        ⟨routine, params, warp, { body with index := body.index + 1 } :: bodies⟩ callers body.body
        body.index instr >>= Sequence.heed).run.run right := by
  rw [Sequence.step_execute rfl isInstr]

/-- Both sides are behind the block. -/
theorem World.Faces.keepsUp_behind (faces : world.Faces place params id block frame rest left right)
    {host other : Host} (hosts : world.Hosts host other) {sequence : Sequence} {call : Activation}
    (behind : Stack place.target .ready place ({ frame with pc := block.next, state := .fresh } :: rest)
      call callers)
    (step : (sequence.step foreign).run.run right =
      (.ok (.more ⟨none, call :: callers⟩), ⟨other, right.thread⟩)) :
    KeepsUp world foreign (left.onward host ({ frame with pc := block.next, state := .fresh } :: rest))
      true sequence right :=
  .steps step (.goes ⟨faces.turns.onward hosts _, faces.running, place.target, faces.isTarget,
    .ready behind⟩)

/-- The program stays as it is. -/
theorem World.Faces.still (faces : world.Faces place params id block frame rest left right)
    {host other : Host} (hosts : world.Hosts host other) :
    host.block? left.thread.target id = some block :=
  hosts.found_left faces.isTarget faces.found

/-! ## Variables -/

theorem keepsUp_set {name : String} {expr : Expr}
    (faces : world.Faces place params id block frame rest left right)
    (opcode : block.opcode = "data_setvariableto") (named : block.fieldText? "VARIABLE" = some name)
    (noSlot : "VARIABLE" ∉ block.inputs.keys) (operands : Operands place routine block ["VALUE"] [expr])
    (isInstr : routine.instr? body.body body.index = some (.set name expr))
    (behind : Stack place.target .ready place ({ frame with pc := block.next, state := .fresh } :: rest)
      ⟨routine, params, warp, { body with index := body.index + 1 } :: bodies⟩ callers)
    (step : interpretStep? foreign depth left = some result) :
    KeepsUp world foreign result.1 result.2
      ⟨none, ⟨routine, params, warp, body :: bodies⟩ :: callers⟩ right := by
  obtain ⟨values, other, reads, alike, yields⟩ := faces.operand foreign operands
  have isName : (((block.args values).get? "VARIABLE").getD .empty).toText = name := by
    rw [(arg_field (by rw [opcode]; rfl) noSlot values).toText_eq, named]
    rfl
  have hosts := faces.turns.hosts.setVariable left.thread.target name alike
  obtain rfl := interpretStep?_next faces.running faces.frames faces.pc faces.found_left (reads depth)
    (by rw [opcode]; rfl) (by rw [← isName]; rfl) (faces.still hosts) step
  refine faces.keepsUp_behind hosts behind ?_
  rw [step_instr isInstr, Sequence.execute, bind_assoc, yields.run_bind, ← faces.turns.target]
  rfl

theorem keepsUp_change {name : String} {expr : Expr}
    (faces : world.Faces place params id block frame rest left right)
    (opcode : block.opcode = "data_changevariableby") (named : block.fieldText? "VARIABLE" = some name)
    (noSlot : "VARIABLE" ∉ block.inputs.keys) (operands : Operands place routine block ["VALUE"] [expr])
    (isInstr : routine.instr? body.body body.index = some (.change name expr))
    (behind : Stack place.target .ready place ({ frame with pc := block.next, state := .fresh } :: rest)
      ⟨routine, params, warp, { body with index := body.index + 1 } :: bodies⟩ callers)
    (step : interpretStep? foreign depth left = some result) :
    KeepsUp world foreign result.1 result.2
      ⟨none, ⟨routine, params, warp, body :: bodies⟩ :: callers⟩ right := by
  obtain ⟨values, other, reads, alike, yields⟩ := faces.operand foreign operands
  have isName : (((block.args values).get? "VARIABLE").getD .empty).toText = name := by
    rw [(arg_field (by rw [opcode]; rfl) noSlot values).toText_eq, named]
    rfl
  have current := faces.turns.hosts.alike.getVariable left.thread.target name
  have hosts := faces.turns.hosts.setVariable left.thread.target name
    (.same (.number ((left.host.getVariable left.thread.target name).toNumber +
      (((block.args values).get? "VALUE").getD .empty).toNumber)))
  obtain rfl := interpretStep?_next faces.running faces.frames faces.pc faces.found_left (reads depth)
    (by rw [opcode]; rfl) (by rw [← isName]; rfl) (faces.still hosts) step
  refine faces.keepsUp_behind hosts behind ?_
  rw [step_instr isInstr, Sequence.execute, bind_assoc, yields.run_bind, current.toNumber_eq, alike.toNumber_eq,
    ← faces.turns.target]
  rfl

/-! ## Blocks that step code calls -/

/-- The code evaluates the arguments and waits for the block. -/
theorem step_op {opcode : String} {exprs : List (String × Expr)} {args : Table Value}
    (isInstr : routine.instr? body.body body.index = some (.op opcode exprs))
    (yields : Yields (evalNamed foreign routine params exprs) right args) :
    (Sequence.step foreign ⟨none, ⟨routine, params, warp, body :: bodies⟩ :: callers⟩).run.run right =
      (.ok (.more ⟨some ⟨opcode, args, .fresh⟩,
        ⟨routine, params, warp, { body with index := body.index + 1 } :: bodies⟩ :: callers⟩), right) := by
  rw [step_instr isInstr, Sequence.execute, bind_assoc, yields.run_bind]
  rfl

/-- The block that the code waits for runs: it ends the thread, is finished, or runs again later. -/
theorem step_pending {op : PendingOp} {calls : List Activation} {standard : StandardBlock}
    {value : Value} {call : Call} (isStandard : StandardBlock.ofOpcode? op.opcode = some standard)
    (performs : (standard.run op.args).perform .compiled op.state right = (.ok value, call)) :
    (Sequence.step foreign ⟨some op, calls⟩).run.run right =
      if call.thread.isDone then (.ok (.rest .retired), call.toTurn)
      else if call.signals.rerun then
        (.ok (.rest (.suspended ⟨some { op with state := call.state }, calls⟩)),
          ⟨call.host, call.thread.withStatus .running⟩)
      else (.ok (.more ⟨none, calls⟩), ⟨call.host, call.thread.wake⟩) := by
  have runs : (runBlock foreign op.opcode op.args op.state).run.run right =
      (.ok ⟨!call.signals.rerun, value, call.state⟩, call.toTurn) := by
    change runBlock foreign op.opcode op.args op.state right = _
    unfold runBlock
    rw [dispatch_standard foreign isStandard, performs]
  rw [Sequence.step_of_runBlock op runs]
  cases call.signals.rerun <;> rfl

/-- The block that the code waits for is finished. -/
theorem step_finished {op : PendingOp} {calls : List Activation} {standard : StandardBlock}
    {value : Value} {host : Host} {site : Site} {state : BlockState}
    (running : right.thread.status = .running)
    (isStandard : StandardBlock.ofOpcode? op.opcode = some standard)
    (performs : (standard.run op.args).perform .compiled op.state right =
      (.ok value, ⟨⟨host, right.thread⟩, site, state, .none⟩)) :
    (Sequence.step foreign ⟨some op, calls⟩).run.run right =
      (.ok (.more ⟨none, calls⟩), ⟨host, right.thread⟩) := by
  rw [step_pending isStandard performs]
  simp [Thread.isDone, Thread.wake, running, Signals.none]

/-- A block that step code calls and that is finished at once. -/
theorem keepsUp_called {standard : StandardBlock} {args : List (String × Expr)}
    (faces : world.Faces place params id block frame rest left right)
    (isStandard : StandardBlock.ofOpcode? block.opcode = some standard)
    (arguments : Arguments place routine block args)
    (effects : ∀ values others, (block.args values).Alike others → ∃ host other, world.Hosts host other ∧
      (standard.run (block.args values)).perform (.block id) frame.state left =
        (.ok .empty, ⟨⟨host, left.thread⟩, .block id, frame.state, .none⟩) ∧
      (standard.run others).perform .compiled .fresh right =
        (.ok .empty, ⟨⟨other, right.thread⟩, .compiled, .fresh, .none⟩))
    (isInstr : routine.instr? body.body body.index = some (.op block.opcode args))
    (behind : Stack place.target .ready place ({ frame with pc := block.next, state := .fresh } :: rest)
      ⟨routine, params, warp, { body with index := body.index + 1 } :: bodies⟩ callers)
    (step : interpretStep? foreign depth left = some result) :
    KeepsUp world foreign result.1 result.2
      ⟨none, ⟨routine, params, warp, body :: bodies⟩ :: callers⟩ right := by
  obtain ⟨values, others, reads, alike, yields⟩ := faces.arguments foreign arguments
  obtain ⟨host, other, hosts, performs, called⟩ := effects values others alike
  obtain rfl := interpretStep?_next faces.running faces.frames faces.pc faces.found_left (reads depth)
    isStandard performs (faces.still hosts) step
  exact .steps (step_op isInstr yields)
    (faces.keepsUp_behind hosts behind (step_finished faces.turns.running isStandard called))

theorem keepsUp_say {args : List (String × Expr)}
    (faces : world.Faces place params id block frame rest left right)
    (opcode : block.opcode ∈ ["looks_say", "looks_think"])
    (arguments : Arguments place routine block args)
    (isInstr : routine.instr? body.body body.index = some (.op block.opcode args))
    (behind : Stack place.target .ready place ({ frame with pc := block.next, state := .fresh } :: rest)
      ⟨routine, params, warp, { body with index := body.index + 1 } :: bodies⟩ callers)
    (step : interpretStep? foreign depth left = some result) :
    KeepsUp world foreign result.1 result.2
      ⟨none, ⟨routine, params, warp, body :: bodies⟩ :: callers⟩ right := by
  have isStandard : StandardBlock.ofOpcode? block.opcode = some .say := by
    simp only [List.mem_cons, List.not_mem_nil, or_false] at opcode
    rcases opcode with opcode | opcode <;> rw [opcode] <;> rfl
  refine keepsUp_called faces isStandard arguments (fun values others alike => ?_) isInstr behind step
  refine ⟨_, _, faces.turns.hosts.say left.thread.target
    (((block.args values).get? "MESSAGE").getD .empty).toText, rfl, ?_⟩
  rw [(alike.getD_alike "MESSAGE").toText_eq, ← faces.turns.target]
  rfl

/-- What a stop block does that ends other scripts only. -/
theorem perform_stopOthers {option : String} {args : Table Value}
    (others : option ∈ ["other scripts in sprite", "other scripts in stage"])
    (isOption : ((args.get? "STOP_OPTION").getD .empty).toText = option) (site : Site)
    (state : BlockState) (turn : Turn) :
    (StandardBlock.run args .stop).perform site state turn =
      (.ok .empty, ⟨⟨turn.host.requestStop (.others turn.thread.target turn.thread.id), turn.thread⟩,
        site, state, .none⟩) := by
  unfold StandardBlock.run
  simp only [isOption]
  simp only [List.mem_cons, List.not_mem_nil, or_false] at others
  rcases others with rfl | rfl <;> rfl

/-- What a stop block does that ends all scripts. -/
theorem perform_stopAll {args : Table Value}
    (isOption : ((args.get? "STOP_OPTION").getD .empty).toText = "all") (site : Site)
    (state : BlockState) (turn : Turn) :
    (StandardBlock.run args .stop).perform site state turn =
      (.ok .empty, ⟨⟨turn.host.requestStop .all, turn.thread.retire⟩, site, state, .none⟩) := by
  unfold StandardBlock.run
  simp only [isOption]
  rfl

/-- The kind of a stop block is what its field says. -/
theorem stopOption_eq {option : String} (opcode : block.opcode = "control_stop")
    (isOption : block.fieldText? "STOP_OPTION" = some option)
    (noSlot : ∀ slot, slot ∉ block.inputs.keys) (values : String → Value) :
    (((block.args values).get? "STOP_OPTION").getD .empty).toText = option := by
  rw [(arg_field (by rw [opcode]; rfl) (noSlot _) values).toText_eq, isOption]
  rfl

theorem keepsUp_stopOthers {option : String} {args : List (String × Expr)}
    (faces : world.Faces place params id block frame rest left right)
    (opcode : block.opcode = "control_stop") (isOption : block.fieldText? "STOP_OPTION" = some option)
    (others : option ∈ ["other scripts in sprite", "other scripts in stage"])
    (noSlot : ∀ slot, slot ∉ block.inputs.keys) (arguments : Arguments place routine block args)
    (isInstr : routine.instr? body.body body.index = some (.op "control_stop" args))
    (behind : Stack place.target .ready place ({ frame with pc := block.next, state := .fresh } :: rest)
      ⟨routine, params, warp, { body with index := body.index + 1 } :: bodies⟩ callers)
    (step : interpretStep? foreign depth left = some result) :
    KeepsUp world foreign result.1 result.2
      ⟨none, ⟨routine, params, warp, body :: bodies⟩ :: callers⟩ right := by
  have isStandard : StandardBlock.ofOpcode? block.opcode = some .stop := by rw [opcode]; rfl
  rw [← opcode] at isInstr
  refine keepsUp_called faces isStandard arguments (fun values table alike => ?_) isInstr behind step
  have isText := stopOption_eq opcode isOption noSlot values
  have isOther := (alike.getD_alike "STOP_OPTION").toText_eq.symm.trans isText
  refine ⟨_, _, faces.turns.hosts.requestStop (.others left.thread.target left.thread.id),
    perform_stopOthers others isText _ _ _, ?_⟩
  rw [perform_stopOthers others isOther, faces.turns.target, faces.turns.id]
  rfl

theorem keepsUp_stopAll {args : List (String × Expr)}
    (faces : world.Faces place params id block frame rest left right)
    (opcode : block.opcode = "control_stop") (isOption : block.fieldText? "STOP_OPTION" = some "all")
    (noSlot : ∀ slot, slot ∉ block.inputs.keys) (arguments : Arguments place routine block args)
    (isInstr : routine.instr? body.body body.index = some (.op "control_stop" args))
    (step : interpretStep? foreign depth left = some result) :
    KeepsUp world foreign result.1 result.2
      ⟨none, ⟨routine, params, warp, body :: bodies⟩ :: callers⟩ right := by
  obtain ⟨values, table, reads, alike, yields⟩ := faces.arguments foreign arguments
  have isText := stopOption_eq opcode isOption noSlot values
  have isOther := (alike.getD_alike "STOP_OPTION").toText_eq.symm.trans isText
  have isStandard : StandardBlock.ofOpcode? block.opcode = some .stop := by rw [opcode]; rfl
  have performs := perform_stopAll isText (.block id) frame.state left
  have called := perform_stopAll isOther .compiled .fresh right
  rw [← dispatch_standard foreign isStandard] at performs
  obtain rfl := interpretStep?_block faces.frames faces.pc faces.found_left (reads depth) performs step
  have retires : (Sequence.step foreign ⟨some ⟨"control_stop", table, .fresh⟩,
      ⟨routine, params, warp, { body with index := body.index + 1 } :: bodies⟩ :: callers⟩).run.run right =
      (.ok (.rest .retired), ⟨right.host.requestStop .all, right.thread.retire⟩) :=
    (step_pending rfl called).trans (if_pos rfl)
  refine .steps (step_op isInstr yields) (.ends retires ?_)
  exact ⟨faces.turns.hosts.requestStop .all, faces.turns.id, faces.turns.target, faces.turns.topBlock,
    rfl, .inl ⟨rfl, rfl⟩⟩

/-! ## Leaving a procedure -/

/-- Outside the innermost procedure stands the caller, if there is one. -/
theorem Stack.callers_cases {target : Target} {mode : Mode} {frames : List Frame} {call : Activation}
    (stack : Stack target mode place frames call callers) :
    (callers = [] ∧ Turn.callerFrames frames = []) ∨
      ∃ outer caller others, callers = caller :: others ∧
        Stack target .ready outer (Turn.callerFrames frames) caller others := by
  induction stack with
  | hat position here noParams noWarp plainFrame once =>
      exact .inl ⟨rfl, by simp [Turn.callerFrames, plainFrame.2.1]⟩
  | procedure position here isProcedure binds inherits once caller _ =>
      simp only [Turn.callerFrames, isProcedure.2.1, Option.isSome_some, if_true]
      exact .inr ⟨_, _, _, rfl, caller⟩
  | branch position isBranch once outer ih => simpa [Turn.callerFrames, isBranch.2.1] using ih
  | loop position isLoop outer ih => simpa [Turn.callerFrames, isLoop.2.1] using ih

theorem leaveProcedure_onward {host : Host} {frames : List Frame} :
    (left.onward host frames).leaveProcedure =
      match Turn.callerFrames frames with
      | [] => ⟨host, left.thread.retire⟩
      | outer :: others => left.onward host (outer :: others) := by
  unfold Turn.leaveProcedure Turn.onward
  cases Turn.callerFrames frames <;> rfl

theorem keepsUp_ret (faces : world.Faces place params id block frame rest left right)
    (stack : Stack place.target .ready place (frame :: rest)
      ⟨routine, params, warp, body :: bodies⟩ callers)
    (opcode : block.opcode = "control_stop")
    (isOption : block.fieldText? "STOP_OPTION" = some "this script")
    (noSlot : ∀ slot, slot ∉ block.inputs.keys)
    (isInstr : routine.instr? body.body body.index = some (.ret none))
    (step : interpretStep? foreign depth left = some result) :
    KeepsUp world foreign result.1 result.2
      ⟨none, ⟨routine, params, warp, body :: bodies⟩ :: callers⟩ right := by
  have reads : Reads (readArgs (readSlot foreign depth block) block) left
      (block.args fun _ => .empty) :=
    readArgs_reads fun slot mem => absurd (List.mem_filter.mp mem).1 (noSlot slot)
  have isText := stopOption_eq opcode isOption noSlot fun _ => .empty
  have performs : (StandardBlock.run (block.args fun _ => .empty) .stop).perform (.block id) frame.state
      left = (.ok .empty, ⟨⟨left.host, left.thread⟩, .block id, frame.state,
        { Signals.none with stopScript := true }⟩) := by
    unfold StandardBlock.run
    simp only [isText]
    rfl
  obtain rfl := interpretStep?_standard faces.frames faces.pc faces.found_left reads
    (by rw [opcode]; rfl) performs step
  rw [ofSignals_eq faces.running, if_pos rfl]
  simp only [Flow.apply, leaveProcedure_onward]
  have returns : (Sequence.step foreign
      ⟨none, ⟨routine, params, warp, body :: bodies⟩ :: callers⟩).run.run right =
      (Sequence.leave .empty callers >>= Sequence.heed).run.run right := by
    rw [step_instr isInstr, Sequence.execute]
  rcases stack.callers_cases with ⟨rfl, isLast⟩ | ⟨outer, caller, others, rfl, isCaller⟩
  · rw [isLast]
    refine .ends (returns.trans (run_leave_last _)) ?_
    exact ⟨faces.turns.hosts, faces.turns.id, faces.turns.target, faces.turns.topBlock, rfl,
      .inr ⟨⟨_, rfl⟩, faces.turns.running, faces.turns.atMarker⟩⟩
  · obtain ⟨first, frames, _, _, isFrames, -⟩ := isCaller.exists_head
    have sameFrames : Turn.callerFrames ({ frame with state := frame.state } :: rest) =
        Turn.callerFrames (frame :: rest) := rfl
    rw [sameFrames, isFrames]
    rw [isFrames] at isCaller
    refine .steps (returns.trans (run_leave_caller faces.turns.running _ _ _)) (.goes ?_)
    exact ⟨faces.turns.onward faces.turns.hosts _, faces.running, place.target, faces.isTarget,
      .ready isCaller⟩

/-! ## Timers -/

/-- The first run of a waiting block starts its timer. -/
theorem perform_wait_start {args : Table Value} {state : BlockState} (noTimer : state.timer = none)
    (site : Site) {turn : Turn} (still : turn.host.readClock = turn.host) :
    (StandardBlock.run args .wait).perform site state turn =
      (.ok .empty, ⟨⟨turn.host, turn.thread.withStatus .yielded⟩, site,
        { state with
          timer := some turn.host.now
          duration := (if ((args.get? "DURATION").getD .empty).toNumber > 0.0 then
            ((args.get? "DURATION").getD .empty).toNumber else 0.0) * 1000.0 },
        { Signals.none with rerun := true }⟩) := by
  obtain ⟨timer, duration, counter⟩ := state
  obtain rfl : timer = none := noTimer
  rw [← still]
  rfl

/-- The other runs ask whether it has run out. -/
theorem perform_wait_again {args : Table Value} {state : BlockState} {started : Nat}
    (isTimer : state.timer = some started) (site : Site) {turn : Turn}
    (still : turn.host.readClock = turn.host) :
    (StandardBlock.run args .wait).perform site state turn =
      if StandardBlock.timerFinished turn.host.now state then
        (.ok .empty, ⟨turn, site, state, .none⟩)
      else (.ok .empty, ⟨⟨turn.host, turn.thread.withStatus .yielded⟩, site, state,
        { Signals.none with rerun := true }⟩) := by
  obtain ⟨timer, duration, counter⟩ := state
  obtain rfl : timer = some started := isTimer
  have same : turn.readClock = turn := by rw [Turn.readClock, still]
  change (do
    (if !StandardBlock.timerFinished turn.host.readClock.now _ then Operation.repeatNextTick else pure ())
    return Value.empty : Operation Value).perform site _ turn.readClock = _
  rw [same, still]
  cases StandardBlock.timerFinished turn.host.now _ <;> rfl

/-- A timer that was started later by `shift` runs out later by `shift`. -/
theorem timerFinished_shift {state other : BlockState} {started shift : Nat}
    (timer : state.timer = some started) (isOther : other.timer = some (started + shift))
    (duration : other.duration = state.duration) (now : Nat) :
    StandardBlock.timerFinished (now + shift) other = StandardBlock.timerFinished now state := by
  simp only [StandardBlock.timerFinished, timer, isOther, duration, Nat.add_sub_add_right]

/-- Both sides wait for the timer of the block. -/
theorem World.Faces.keepsUp_waiting (faces : world.Faces place params id block frame rest left right)
    (opcode : block.opcode = "control_wait") {args : Table Value}
    (reads : Reads (readArgs (readSlot foreign depth block) block) left args) {op : PendingOp}
    {calls : List Activation} {state other : BlockState} (isOp : op.opcode = "control_wait")
    (performs : (StandardBlock.run args .wait).perform (.block id) frame.state left =
      (.ok .empty, ⟨⟨left.host, left.thread.withStatus .yielded⟩, .block id, state,
        { Signals.none with rerun := true }⟩))
    (called : (StandardBlock.run op.args .wait).perform .compiled op.state right =
      (.ok .empty, ⟨⟨right.host, right.thread.withStatus .yielded⟩, .compiled, other,
        { Signals.none with rerun := true }⟩))
    (follows : Follows place.target world.shift ({ frame with state := state } :: rest)
      ⟨some { op with state := other }, calls⟩)
    (step : interpretStep? foreign depth left = some result) :
    KeepsUp world foreign result.1 result.2 ⟨some op, calls⟩ right := by
  have isStandard : StandardBlock.ofOpcode? block.opcode = some .wait := by rw [opcode]; rfl
  rw [← dispatch_standard foreign isStandard] at performs
  obtain rfl := interpretStep?_block faces.frames faces.pc faces.found_left reads performs step
  have onLeft : (left.thread.withStatus .yielded).mapFrame (fun frame => { frame with state := state }) =
      { left.thread with status := .yielded, frames := { frame with state := state } :: rest } := by
    simp [Thread.mapFrame, Thread.withStatus, faces.frames]
  have isRunning : right.thread.withStatus .running = right.thread := by
    rw [← faces.turns.running]
    rfl
  have rests : (Sequence.step foreign ⟨some op, calls⟩).run.run right =
      (.ok (.rest (.suspended ⟨some { op with state := other }, calls⟩)),
        ⟨right.host, right.thread.withStatus .running⟩) :=
    (step_pending (by rw [isOp]; rfl) called).trans rfl
  rw [isRunning] at rests
  simp only [onLeft]
  refine .rests rests rfl ?_
  have woken : ({ left.thread with status := .yielded, frames := { frame with state := state } :: rest } :
      Thread).wake = (left.onward left.host ({ frame with state := state } :: rest)).thread := by
    simp [Thread.wake, Thread.withStatus, Turn.onward, faces.running]
  exact ⟨woken ▸ faces.turns.onward faces.turns.hosts _, woken ▸ faces.running, place.target,
    faces.isTarget, follows⟩

theorem keepsUp_wait {args : List (String × Expr)}
    (faces : world.Faces place params id block frame rest left right)
    (opcode : block.opcode = "control_wait") (fresh : frame.state = .fresh)
    (arguments : Arguments place routine block args)
    (isInstr : routine.instr? body.body body.index = some (.op "control_wait" args))
    (behind : Stack place.target .ready place ({ frame with pc := block.next, state := .fresh } :: rest)
      ⟨routine, params, warp, { body with index := body.index + 1 } :: bodies⟩ callers)
    (step : interpretStep? foreign depth left = some result) :
    KeepsUp world foreign result.1 result.2
      ⟨none, ⟨routine, params, warp, body :: bodies⟩ :: callers⟩ right := by
  obtain ⟨values, others, reads, alike, yields⟩ := faces.arguments foreign arguments
  have noTimer : frame.state.timer = none := by rw [fresh]; rfl
  refine .steps (step_op isInstr yields) (faces.keepsUp_waiting opcode (reads depth) rfl
    (perform_wait_start noTimer _ faces.turns.hosts.readClock_left)
    (perform_wait_start rfl _ faces.turns.hosts.readClock_right) ?_ step)
  refine .waiting faces.pc faces.found opcode arguments rfl rfl ?_ ?_ behind
  · exact congrArg some faces.turns.hosts.clock
  · simp only [(alike.getD_alike "DURATION").toNumber_eq]

theorem keepsUp_awaited {args : List (String × Expr)} {op : PendingOp} {call : Activation}
    {started : Nat} (faces : world.Faces place call.params id block frame rest left right)
    (opcode : block.opcode = "control_wait") (arguments : Arguments place call.routine block args)
    (isOp : op.opcode = "control_wait") (leftTimer : frame.state.timer = some started)
    (rightTimer : op.state.timer = some (started + world.shift))
    (duration : op.state.duration = frame.state.duration)
    (behind : Stack place.target .ready place ({ frame with pc := block.next, state := .fresh } :: rest)
      call callers)
    (step : interpretStep? foreign depth left = some result) :
    KeepsUp world foreign result.1 result.2 ⟨some op, call :: callers⟩ right := by
  obtain ⟨values, others, reads, alike, yields⟩ := faces.arguments foreign arguments
  have performs : (StandardBlock.run (block.args values) .wait).perform (.block id) frame.state left = _ :=
    perform_wait_again leftTimer _ faces.turns.hosts.readClock_left
  have called : (StandardBlock.run op.args .wait).perform .compiled op.state right = _ :=
    perform_wait_again rightTimer _ faces.turns.hosts.readClock_right
  rw [faces.turns.hosts.clock, timerFinished_shift leftTimer rightTimer duration] at called
  cases finished : StandardBlock.timerFinished left.host.now frame.state with
  | true =>
      rw [finished, if_pos rfl] at performs called
      obtain rfl := interpretStep?_next faces.running faces.frames faces.pc faces.found_left
        (reads depth) (by rw [opcode]; rfl) performs (faces.still faces.turns.hosts) step
      refine faces.keepsUp_behind faces.turns.hosts behind ?_
      exact step_finished faces.turns.running (by rw [isOp]; rfl) called
  | false =>
      rw [finished, if_neg (by decide)] at performs called
      refine faces.keepsUp_waiting opcode (reads depth) isOp performs called ?_ step
      exact .waiting faces.pc faces.found opcode arguments isOp leftTimer rightTimer duration behind

/-! ## Branches -/

/-- A branch is entered on both sides. -/
theorem World.Faces.keepsUp_branch (faces : world.Faces place params id block frame rest left right)
    {slot : String} {number : Nat} {state : BlockState}
    (code : Code place routine (block.inputBlock? slot) (routine.body number))
    (behind : Stack place.target .ready place ({ frame with pc := block.next, state := .fresh } :: rest)
      ⟨routine, params, warp, body :: bodies⟩ callers) :
    KeepsUp world foreign
      ((Flow.branch (block.inputBlock? slot) false).apply
        (left.onward left.host ({ frame with state := state } :: rest))).1
      ((Flow.branch (block.inputBlock? slot) false).apply
        (left.onward left.host ({ frame with state := state } :: rest))).2
      ⟨none, ⟨routine, params, warp, ⟨number, 0, .once⟩ :: body :: bodies⟩ :: callers⟩ right := by
  have moves : (left.onward left.host ({ frame with state := state } :: rest)).moveOn =
      left.onward left.host ({ frame with pc := block.next, state := .fresh } :: rest) :=
    moveOn_onward faces.pc faces.found_left
  have sameWarp : frame.warp = warp := behind.warp_eq
  cases isFirst : block.inputBlock? slot with
  | none =>
      rw [isFirst] at code
      simp only [Flow.apply, moves]
      refine .steps (step_pop ?_ (.pure _ _)) (.goes ?_)
      · simp [Routine.instr?, code.nil]
      · exact ⟨faces.turns.onward faces.turns.hosts _, faces.running, place.target, faces.isTarget,
          .ready behind⟩
  | some first =>
      rw [isFirst] at code
      simp only [Flow.apply, moves]
      have stack : Stack place.target .ready place
          ({ Frame.start first with isLoop := false, warp := frame.warp } ::
            { frame with pc := block.next, state := .fresh } :: rest)
          ⟨routine, params, warp, ⟨number, 0, .once⟩ :: body :: bodies⟩ callers :=
        .branch (.ready rfl ⟨_, [], (List.append_nil _).symm, code, rfl⟩) ⟨rfl, rfl, sameWarp⟩ rfl behind
      exact .goes ⟨faces.turns.onward faces.turns.hosts _, faces.running, place.target, faces.isTarget,
        .ready stack⟩

/-- A block in a script asks for a branch. -/
theorem flow_branch (running : left.thread.status = .running) {host : Host} {frames : List Frame}
    {args : Table Value} (number : Nat) (isLoop : Bool) :
    Flow.ofSignals (left.onward host frames) block args
        { Signals.none with branch := some (number, isLoop) } =
      .branch (block.inputBlock? (Flow.branchSlot number)) isLoop := by
  rw [ofSignals_eq running]
  rfl

theorem step_ifElse {cond : Expr} {value : Value} {yes no : Nat}
    (isInstr : routine.instr? body.body body.index = some (.ifElse cond yes no))
    (yields : Yields (eval foreign routine params cond) right value) :
    (Sequence.step foreign ⟨none, ⟨routine, params, warp, body :: bodies⟩ :: callers⟩).run.run right =
      (.ok (.more ⟨none, ⟨routine, params, warp, ⟨if value.toBool then yes else no, 0, .once⟩ ::
        { body with index := body.index + 1 } :: bodies⟩ :: callers⟩), right) := by
  rw [step_instr isInstr, Sequence.execute, bind_assoc, yields.run_bind]
  rfl

theorem keepsUp_ifTrue {cond : Expr} {yes no : Nat}
    (faces : world.Faces place params id block frame rest left right)
    (opcode : block.opcode = "control_if")
    (operands : Operands place routine block ["CONDITION"] [cond])
    (isYes : Code place routine (block.inputBlock? "SUBSTACK") (routine.body yes))
    (isNo : routine.body no = [])
    (isInstr : routine.instr? body.body body.index = some (.ifElse cond yes no))
    (behind : Stack place.target .ready place ({ frame with pc := block.next, state := .fresh } :: rest)
      ⟨routine, params, warp, { body with index := body.index + 1 } :: bodies⟩ callers)
    (step : interpretStep? foreign depth left = some result) :
    KeepsUp world foreign result.1 result.2
      ⟨none, ⟨routine, params, warp, body :: bodies⟩ :: callers⟩ right := by
  obtain ⟨values, other, reads, alike, yields⟩ := faces.operand foreign operands
  have isStandard : StandardBlock.ofOpcode? block.opcode = some .ifTrue := by rw [opcode]; rfl
  refine .steps (step_ifElse isInstr yields) ?_
  cases holds : other.toBool with
  | true =>
      have performs : (StandardBlock.run (block.args values) .ifTrue).perform (.block id) frame.state left =
          (.ok .empty, ⟨left, .block id, frame.state,
            { Signals.none with branch := some (1, false) }⟩) := by
        unfold StandardBlock.run
        simp only [alike.toBool_eq, holds]
        rfl
      obtain rfl := interpretStep?_standard faces.frames faces.pc faces.found_left (reads depth)
        isStandard performs step
      rw [flow_branch faces.running]
      exact faces.keepsUp_branch isYes behind
  | false =>
      have performs : (StandardBlock.run (block.args values) .ifTrue).perform (.block id) frame.state left =
          (.ok .empty, ⟨left, .block id, frame.state, .none⟩) := by
        unfold StandardBlock.run
        simp only [alike.toBool_eq, holds]
        rfl
      obtain rfl := interpretStep?_next faces.running faces.frames faces.pc faces.found_left
        (reads depth) isStandard performs (faces.still faces.turns.hosts) step
      refine faces.keepsUp_behind faces.turns.hosts behind (step_pop ?_ (.pure _ _))
      simp [Routine.instr?, isNo]

theorem keepsUp_ifElse {cond : Expr} {yes no : Nat}
    (faces : world.Faces place params id block frame rest left right)
    (opcode : block.opcode = "control_if_else")
    (operands : Operands place routine block ["CONDITION"] [cond])
    (isYes : Code place routine (block.inputBlock? "SUBSTACK") (routine.body yes))
    (isNo : Code place routine (block.inputBlock? "SUBSTACK2") (routine.body no))
    (isInstr : routine.instr? body.body body.index = some (.ifElse cond yes no))
    (behind : Stack place.target .ready place ({ frame with pc := block.next, state := .fresh } :: rest)
      ⟨routine, params, warp, { body with index := body.index + 1 } :: bodies⟩ callers)
    (step : interpretStep? foreign depth left = some result) :
    KeepsUp world foreign result.1 result.2
      ⟨none, ⟨routine, params, warp, body :: bodies⟩ :: callers⟩ right := by
  obtain ⟨values, other, reads, alike, yields⟩ := faces.operand foreign operands
  have performs : (StandardBlock.run (block.args values) .ifElse).perform (.block id) frame.state left =
      (.ok .empty, ⟨left, .block id, frame.state,
        { Signals.none with branch := some (if other.toBool then 1 else 2, false) }⟩) := by
    rw [← alike.toBool_eq]
    rfl
  obtain rfl := interpretStep?_standard faces.frames faces.pc faces.found_left (reads depth)
    (by rw [opcode]; rfl) performs step
  rw [flow_branch faces.running]
  refine .steps (step_ifElse isInstr yields) ?_
  cases other.toBool with
  | true => exact faces.keepsUp_branch isYes behind
  | false => exact faces.keepsUp_branch isNo behind

end

end StepCode
