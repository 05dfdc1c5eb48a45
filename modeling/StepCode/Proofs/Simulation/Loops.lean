import StepCode.Proofs.Simulation.Statements

/-!
# Loops

A loop gives up the tick at the end of every iteration, unless it runs in warp, and is asked again
before the next one.
-/

namespace StepCode

open Lowering (Place)

section

variable {world : World} {foreign : Foreign} {depth : Nat} {place : Place} {params : Table Value}
  {id : String} {block : Block} {frame : Frame} {rest : List Frame} {left right : Turn}
  {routine : Routine} {warp : Bool} {body : BodyFrame} {bodies : List BodyFrame}
  {callers : List Activation} {result : Turn × Bool}

/-! ## Pauses -/

set_option maxRecDepth 4000 in
theorem not_milliseconds_zero_gt : decide (Host.milliseconds 0 > 500.0) = false := by
  decide

/-- A clock that stands still shows the age of the tick, and is not moved by reading it. -/
theorem elapsed_yields {turn : Turn} (still : turn.host.readClock = turn.host) :
    Yields Act.elapsed turn (Host.milliseconds turn.host.tickAge) := by
  have reads : Act.elapsed.run.run turn =
      (.ok (Host.milliseconds turn.host.readClock.tickAge), ⟨turn.host.readClock, turn.thread⟩) := rfl
  rw [still] at reads
  exact reads

/-- A tick whose clock stands still is not overdue. -/
theorem eval_isStuck {turn : Turn} (supplied : routine.Supplies ["is_stuck"])
    (still : turn.host.readClock = turn.host) (begins : turn.host.tickStarted = turn.host.now) :
    Yields (eval foreign routine params (.helper "is_stuck" [])) turn (.bool false) := by
  have found : routine.helpers.get? "is_stuck" = some .isStuck := (supplied _ (by simp)).trans rfl
  have room : innerEval foreign routine helperLimit =
      some (evalWith foreign routine (innerEval foreign routine 63)) := rfl
  have age : turn.host.tickAge = 0 := by simp [Host.tickAge, begins]
  unfold eval
  rw [room]
  simp only [evalWith, found]
  refine (evalFirst_yields .nil).bind ?_
  have young : Builtin.gt.apply [.number (Host.milliseconds turn.host.tickAge), .number 500.0] =
      .bool false := by
    rw [age]
    exact congrArg Value.bool not_milliseconds_zero_gt
  rw [← young]
  refine evalWith_builtin (by decide) (.cons ?_ (.cons ?_ .nil))
  · rw [evalWith]
    exact (evalList_yields .nil).bind ((elapsed_yields still).bind (.pure _ _))
  · rw [evalWith]
    exact .pure _ _

/-- Outside warp the pause ends the tick. -/
theorem step_yield_outside (isInstr : routine.instr? body.body body.index = some .yield)
    (running : right.thread.status = .running) :
    (Sequence.step foreign ⟨none, ⟨routine, params, false, body :: bodies⟩ :: callers⟩).run.run right =
      (.ok (.rest (.suspended ⟨none,
        ⟨routine, params, false, { body with index := body.index + 1 } :: bodies⟩ :: callers⟩)), right) := by
  rw [step_instr isInstr, Sequence.execute, bind_assoc,
    Act.run_bind (Sequence.run_givesUp_outside right)]
  change (Sequence.heed (.yield _)).run.run right = _
  rw [Sequence.run_heed_yield, if_neg (by simp [Thread.isDone, running]), if_neg (by simp [running])]

/-- In warp it ends the tick only if that is overdue. -/
theorem step_yield_inside (isInstr : routine.instr? body.body body.index = some .yield)
    (still : right.host.readClock = right.host) (inTime : right.host.isOverdue = false) :
    (Sequence.step foreign ⟨none, ⟨routine, params, true, body :: bodies⟩ :: callers⟩).run.run right =
      (.ok (.more ⟨none,
        ⟨routine, params, true, { body with index := body.index + 1 } :: bodies⟩ :: callers⟩), right) := by
  have goesOn : (Sequence.givesUp true).run.run right = (.ok false, right) := by
    rw [Sequence.run_givesUp_inWarp, Turn.readClock, still, inTime]
  rw [step_instr isInstr, Sequence.execute, bind_assoc, Act.run_bind goesOn]
  rfl

/-- The pause at the end of an iteration. -/
theorem keepsUp_pause {frames : List Frame} {rule : Rule} {number index : Nat} {pause : Instr}
    (turns : world.Turns left right) (running : left.thread.status = .running)
    (isTarget : world.befores[left.thread.target]? = some place.target)
    (isFrames : left.thread.frames = frames)
    (outer : Stack place.target (.looping rule number) place frames ⟨routine, params, warp, bodies⟩
      callers)
    (isPause : routine.instr? number index = some pause)
    (isLast : routine.instr? number (index + 1) = none)
    (holds : Routine.HoldsStmt routine.body place.pause pause)
    (supplied : routine.Supplies place.pause.helperCalls) :
    KeepsUp world foreign left.iterationOver.1 left.iterationOver.2
      ⟨none, ⟨routine, params, warp, ⟨number, index, rule⟩ :: bodies⟩ :: callers⟩ right := by
  have inTime := turns.hosts.isOverdue_eq
  have inherits := outer.place_eq.2.1
  have inWarp : left.thread.inWarp = warp := by
    obtain ⟨frame, rest, _, _, isHead, -, same, -⟩ := outer.exists_head
    rw [Thread.inWarp, isFrames, isHead]
    exact same
  have follows : Follows place.target world.shift left.thread.frames
      ⟨none, ⟨routine, params, warp, ⟨number, index + 1, rule⟩ :: bodies⟩ :: callers⟩ :=
    isFrames ▸ .recheck outer isLast
  cases warp with
  | false =>
      have outside : place.warp = false := by
        cases isWarp : place.warp with
        | false => rfl
        | true => exact (inherits isWarp).symm
      rw [Place.pause, outside] at holds
      obtain rfl : pause = .yield := by simpa [Routine.HoldsStmt] using holds
      have isOver : left.iterationOver = (⟨left.host, left.thread.withStatus .yielded⟩, false) := by
        rw [Turn.iterationOver, inWarp]
        rfl
      have woken : (left.thread.withStatus .yielded).wake = left.thread := by
        simp [Thread.wake, Thread.withStatus, ← running]
      rw [isOver]
      refine .rests (step_yield_outside isPause turns.running) rfl ?_
      simp only [woken]
      exact ⟨turns, running, place.target, isTarget, follows⟩
  | true =>
      have goesOn : left.iterationOver = (left, true) := by
        have still : left.readClock = left := by rw [Turn.readClock, turns.hosts.readClock_left]
        simp only [Turn.iterationOver, inWarp, still, inTime.1]
        rfl
      rw [goesOn]
      have goes : KeepsUp world foreign left true
          ⟨none, ⟨routine, params, true, ⟨number, index + 1, rule⟩ :: bodies⟩ :: callers⟩ right :=
        .goes ⟨turns, running, place.target, isTarget, follows⟩
      cases isWarp : place.warp with
      | false =>
          rw [Place.pause, isWarp] at holds
          obtain rfl : pause = .yield := by simpa [Routine.HoldsStmt] using holds
          exact .steps (step_yield_inside isPause turns.hosts.readClock_right inTime.2) goes
      | true =>
          rw [Place.pause, isWarp, if_pos rfl] at holds supplied
          rw [Routine.HoldsStmt] at holds
          obtain ⟨yes, no, rfl, -, isNo⟩ := holds
          rw [Routine.Holds] at isNo
          have stuck : Yields (eval foreign routine params (.helper "is_stuck" [])) right (.bool false) :=
            eval_isStuck (supplied.mono (by simp [Stmt.helperCalls, Expr.helperCalls]))
              turns.hosts.readClock_right turns.hosts.rightTick
          refine .steps (step_ifElse isPause stuck) (.steps (step_pop ?_ (.pure _ _)) goes)
          simp [Routine.instr?, Value.toBool, isNo]

/-! ## Iterations -/

/-- Another iteration begins on both sides. -/
theorem World.Faces.keepsUp_iteration
    (faces : world.Faces place params id block frame rest left right) {state : BlockState} {rule : Rule}
    {number : Nat} (isBody : LoopBody place routine block number)
    (around : Stack place.target (.looping rule number) place ({ frame with state := state } :: rest)
      ⟨routine, params, warp, bodies⟩ callers) :
    KeepsUp world foreign
      ((Flow.branch (block.inputBlock? "SUBSTACK") true).apply
        (left.onward left.host ({ frame with state := state } :: rest))).1
      ((Flow.branch (block.inputBlock? "SUBSTACK") true).apply
        (left.onward left.host ({ frame with state := state } :: rest))).2
      ⟨none, ⟨routine, params, warp, ⟨number, 0, rule⟩ :: bodies⟩ :: callers⟩ right := by
  obtain ⟨instrs, pause, isInstrs, code, holds, supplied⟩ := isBody
  have turns := faces.turns.onward faces.turns.hosts ({ frame with state := state } :: rest)
  cases isFirst : block.inputBlock? "SUBSTACK" with
  | none =>
      rw [isFirst] at code
      obtain rfl := code.nil
      refine keepsUp_pause turns faces.running faces.isTarget rfl around ?_ ?_ holds supplied
      · simp [Routine.instr?, isInstrs]
      · simp [Routine.instr?, isInstrs]
  | some first =>
      rw [isFirst] at code
      have sameWarp : frame.warp = warp := around.warp_eq
      have stack : Stack place.target .ready place
          ({ Frame.start first with isLoop := true, warp := frame.warp } ::
            { frame with state := state } :: rest)
          ⟨routine, params, warp, ⟨number, 0, rule⟩ :: bodies⟩ callers :=
        .loop (.ready rfl ⟨instrs, [pause], isInstrs, code, pause, rfl, holds, supplied⟩)
          ⟨rfl, rfl, sameWarp⟩ around
      exact .goes ⟨faces.turns.onward faces.turns.hosts _, faces.running, place.target, faces.isTarget,
        .ready stack⟩

/-- A loop is asked: another iteration begins on both sides, or both go on behind the loop. -/
theorem World.Faces.keepsUp_asked (faces : world.Faces place params id block frame rest left right)
    (continued : Bool) {standard : StandardBlock} {args : Table Value} {state : BlockState} {rule : Rule}
    {number : Nat} {sequence : Sequence}
    (isStandard : StandardBlock.ofOpcode? block.opcode = some standard)
    (reads : Reads (readArgs (readSlot foreign depth block) block) left args)
    (performs : (standard.run args).perform (.block id) frame.state left =
      (.ok .empty, ⟨left, .block id, state,
        if continued then { Signals.none with branch := some (1, true) } else .none⟩))
    (isBody : LoopBody place routine block number)
    (next : (sequence.step foreign).run.run right = (.ok (.more ⟨none,
      ⟨routine, params, warp, if continued then ⟨number, 0, rule⟩ :: body :: bodies
        else body :: bodies⟩ :: callers⟩), right))
    (around : continued = true → Stack place.target (.looping rule number) place
      ({ frame with state := state } :: rest) ⟨routine, params, warp, body :: bodies⟩ callers)
    (behind : Stack place.target .ready place ({ frame with pc := block.next, state := .fresh } :: rest)
      ⟨routine, params, warp, body :: bodies⟩ callers)
    (step : interpretStep? foreign depth left = some result) :
    KeepsUp world foreign result.1 result.2 sequence right := by
  cases continued with
  | true =>
      obtain rfl := interpretStep?_standard faces.frames faces.pc faces.found_left reads isStandard
        performs step
      rw [if_pos rfl, flow_branch faces.running]
      exact .steps next (faces.keepsUp_iteration isBody (around rfl))
  | false =>
      obtain rfl := interpretStep?_next faces.running faces.frames faces.pc faces.found_left reads
        isStandard performs (faces.still faces.turns.hosts) step
      exact faces.keepsUp_behind faces.turns.hosts behind next

/-! ## What a loop is asked -/

theorem perform_times {args : Table Value} {state : BlockState} {left : Nat}
    (isLeft : state.counter.getD (StandardBlock.iterations ((args.get? "TIMES").getD .empty)) = left)
    (turn : Turn) :
    (StandardBlock.run args .times).perform (.block id) state turn =
      (.ok .empty, ⟨turn, .block id, { state with counter := some (left - 1) },
        if decide (0 < left) then { Signals.none with branch := some (1, true) } else .none⟩) := by
  unfold StandardBlock.run Operation.perform
  dsimp only
  rw [ExceptT.run_bind, StateT.run_bind, StandardBlock.run_runTimes]
  simp only [isLeft]
  by_cases more : 0 < left
  · simp only [more, if_true, decide_true]
    rfl
  · simp only [more, if_false, decide_false]
    rfl

theorem perform_whileTrue {args : Table Value} {other : Value}
    (alike : ((args.get? "CONDITION").getD .empty).Alike other) (state : BlockState) (turn : Turn) :
    (StandardBlock.run args .whileTrue).perform (.block id) state turn =
      (.ok .empty, ⟨turn, .block id, state,
        if other.toBool then { Signals.none with branch := some (1, true) } else .none⟩) := by
  unfold StandardBlock.run
  simp only [alike.toBool_eq]
  cases other.toBool <;> rfl

theorem perform_untilTrue {args : Table Value} {other : Value}
    (alike : ((args.get? "CONDITION").getD .empty).Alike other) (state : BlockState) (turn : Turn) :
    (StandardBlock.run args .untilTrue).perform (.block id) state turn =
      (.ok .empty, ⟨turn, .block id, state,
        if !other.toBool then { Signals.none with branch := some (1, true) } else .none⟩) := by
  unfold StandardBlock.run
  simp only [alike.toBool_eq]
  cases other.toBool <;> rfl

/-- A loop whose first iteration begins. -/
theorem Stack.around {instr : Instr} {state : BlockState} {rule : Rule} {number : Nat}
    (stack : Stack place.target .ready place (frame :: rest)
      ⟨routine, params, warp, body :: bodies⟩ callers)
    (pc : frame.pc = some id) (found : place.target.block? id = some block)
    (instructs : Instructs place routine block instr)
    (isInstr : routine.instr? body.body body.index = some instr)
    (remains : Remains place routine block.next frame.isLoop
      ((routine.body body.body).drop (body.index + 1)))
    (isBody : LoopBody place routine block number)
    (repeats : Repeats state body.body body.index instr rule number) :
    Stack place.target (.looping rule number) place ({ frame with state := state } :: rest)
      ⟨routine, params, warp, { body with index := body.index + 1 } :: bodies⟩ callers :=
  stack.move (.looping pc found instructs rfl isInstr repeats isBody remains)

/-! ## First iterations -/

theorem keepsUp_times {count : Expr} {number : Nat}
    (faces : world.Faces place params id block frame rest left right)
    (stack : Stack place.target .ready place (frame :: rest)
      ⟨routine, params, warp, body :: bodies⟩ callers)
    (fresh : frame.state = .fresh) (opcode : block.opcode = "control_repeat")
    (operands : Operands place routine block ["TIMES"] [count])
    (isBody : LoopBody place routine block number)
    (isInstr : routine.instr? body.body body.index = some (.times count number))
    (remains : Remains place routine block.next frame.isLoop
      ((routine.body body.body).drop (body.index + 1)))
    (step : interpretStep? foreign depth left = some result) :
    KeepsUp world foreign result.1 result.2
      ⟨none, ⟨routine, params, warp, body :: bodies⟩ :: callers⟩ right := by
  obtain ⟨values, other, reads, alike, yields⟩ := faces.operand foreign operands
  have isCount : frame.state.counter.getD
      (StandardBlock.iterations (((block.args values).get? "TIMES").getD .empty)) =
      StandardBlock.iterations other := by
    rw [fresh, BlockState.fresh, Option.getD_none, StandardBlock.iterations, alike.toNumber_eq]
    rfl
  have repeats : Repeats { frame.state with counter := some (StandardBlock.iterations other - 1) }
      body.body body.index (.times count number) (.times (StandardBlock.iterations other - 1)) number :=
    .times rfl
  have around := stack.around faces.pc faces.found (.times opcode operands isBody) isInstr remains isBody
    repeats
  refine faces.keepsUp_asked (decide (0 < StandardBlock.iterations other)) (by rw [opcode]; rfl)
    (reads depth) (perform_times isCount left) isBody ?_ (fun _ => around)
    (stack.move (.ready rfl remains)) step
  rw [step_instr isInstr, Sequence.execute, bind_assoc, yields.run_bind]
  by_cases more : 0 < StandardBlock.iterations other
  · simp only [more, if_true, decide_true]
    rfl
  · simp only [more, if_false, decide_false]
    rfl

theorem keepsUp_forever {number : Nat}
    (faces : world.Faces place params id block frame rest left right)
    (stack : Stack place.target .ready place (frame :: rest)
      ⟨routine, params, warp, body :: bodies⟩ callers)
    (opcode : block.opcode = "control_forever") (operands : Operands place routine block [] [])
    (isBody : LoopBody place routine block number)
    (isInstr : routine.instr? body.body body.index = some (.forever number))
    (remains : Remains place routine block.next frame.isLoop
      ((routine.body body.body).drop (body.index + 1)))
    (step : interpretStep? foreign depth left = some result) :
    KeepsUp world foreign result.1 result.2
      ⟨none, ⟨routine, params, warp, body :: bodies⟩ :: callers⟩ right := by
  obtain ⟨values, others, reads, -, -⟩ := faces.operands foreign operands
  have repeats : Repeats frame.state body.body body.index (.forever number)
      (.recheck body.body body.index) number := .forever
  have around := stack.around faces.pc faces.found (.forever opcode operands isBody) isInstr remains isBody
    repeats
  refine faces.keepsUp_asked true (by rw [opcode]; rfl) (reads depth) rfl isBody ?_ (fun _ => around)
    (stack.move (.ready rfl remains)) step
  rw [step_instr isInstr, Sequence.execute]
  rfl

theorem keepsUp_whileTrue {cond : Expr} {number : Nat}
    (faces : world.Faces place params id block frame rest left right)
    (stack : Stack place.target .ready place (frame :: rest)
      ⟨routine, params, warp, body :: bodies⟩ callers)
    (opcode : block.opcode = "control_while")
    (operands : Operands place routine block ["CONDITION"] [cond])
    (isBody : LoopBody place routine block number)
    (isInstr : routine.instr? body.body body.index = some (.whileTrue cond number))
    (remains : Remains place routine block.next frame.isLoop
      ((routine.body body.body).drop (body.index + 1)))
    (step : interpretStep? foreign depth left = some result) :
    KeepsUp world foreign result.1 result.2
      ⟨none, ⟨routine, params, warp, body :: bodies⟩ :: callers⟩ right := by
  obtain ⟨values, other, reads, alike, yields⟩ := faces.operand foreign operands
  have repeats : Repeats frame.state body.body body.index (.whileTrue cond number)
      (.recheck body.body body.index) number := .whileTrue
  have around := stack.around faces.pc faces.found (.whileTrue opcode operands isBody) isInstr remains isBody
    repeats
  refine faces.keepsUp_asked other.toBool (by rw [opcode]; rfl) (reads depth)
    (perform_whileTrue alike _ _) isBody ?_ (fun _ => around) (stack.move (.ready rfl remains)) step
  rw [step_instr isInstr, Sequence.execute, bind_assoc, yields.run_bind]
  cases other.toBool <;> rfl

theorem keepsUp_untilTrue {cond : Expr} {number : Nat}
    (faces : world.Faces place params id block frame rest left right)
    (stack : Stack place.target .ready place (frame :: rest)
      ⟨routine, params, warp, body :: bodies⟩ callers)
    (opcode : block.opcode = "control_repeat_until")
    (operands : Operands place routine block ["CONDITION"] [cond])
    (isBody : LoopBody place routine block number)
    (isInstr : routine.instr? body.body body.index = some (.untilTrue cond number))
    (remains : Remains place routine block.next frame.isLoop
      ((routine.body body.body).drop (body.index + 1)))
    (step : interpretStep? foreign depth left = some result) :
    KeepsUp world foreign result.1 result.2
      ⟨none, ⟨routine, params, warp, body :: bodies⟩ :: callers⟩ right := by
  obtain ⟨values, other, reads, alike, yields⟩ := faces.operand foreign operands
  have repeats : Repeats frame.state body.body body.index (.untilTrue cond number)
      (.recheck body.body body.index) number := .untilTrue
  have around := stack.around faces.pc faces.found (.untilTrue opcode operands isBody) isInstr remains isBody
    repeats
  refine faces.keepsUp_asked (!other.toBool) (by rw [opcode]; rfl) (reads depth)
    (perform_untilTrue alike _ _) isBody ?_ (fun _ => around) (stack.move (.ready rfl remains)) step
  rw [step_instr isInstr, Sequence.execute, bind_assoc, yields.run_bind]
  cases other.toBool <;> rfl

/-! ## Further iterations -/

/-- The step at the end of a body. -/
theorem step_end {rule : Rule} {number index : Nat} {continued : Bool} {next : Rule}
    (atEnd : routine.instr? number index = none)
    (isAgain : Yields (Sequence.again foreign
      ⟨routine, params, warp, ⟨number, index, rule⟩ :: body :: bodies⟩ rule) right
      (if continued then some next else none)) :
    (Sequence.step foreign
      ⟨none, ⟨routine, params, warp, ⟨number, index, rule⟩ :: body :: bodies⟩ :: callers⟩).run.run right =
      (.ok (.more ⟨none, ⟨routine, params, warp, if continued then ⟨number, 0, next⟩ :: body :: bodies
        else body :: bodies⟩ :: callers⟩), right) := by
  cases continued with
  | true => exact step_repeat atEnd isAgain
  | false => exact step_pop atEnd isAgain

/-- A loop that is asked again. -/
theorem step_recheck {owner before number index : Nat} {instr : Instr} {continued : Bool}
    (atEnd : routine.instr? number index = none)
    (isInstr : routine.instr? owner before = some instr)
    (loops : Yields (Sequence.loopsOn foreign
      ⟨routine, params, warp, ⟨number, index, .recheck owner before⟩ :: body :: bodies⟩ (some instr)) right
      continued) :
    (Sequence.step foreign ⟨none, ⟨routine, params, warp,
      ⟨number, index, .recheck owner before⟩ :: body :: bodies⟩ :: callers⟩).run.run right =
      (.ok (.more ⟨none, ⟨routine, params, warp,
        if continued then ⟨number, 0, .recheck owner before⟩ :: body :: bodies
        else body :: bodies⟩ :: callers⟩), right) := by
  refine step_end atEnd ?_
  unfold Sequence.again
  simp only [isInstr]
  exact loops.bind (.pure _ _)

/-- The end of an iteration: the loop at which the frame stands is asked again. -/
theorem keepsUp_recheck {rule : Rule} {number index before : Nat} {instr : Instr}
    (faces : world.Faces place params id block frame rest left right)
    (stack : Stack place.target (.looping rule number) place (frame :: rest)
      ⟨routine, params, warp, body :: bodies⟩ callers)
    (atEnd : routine.instr? number index = none) (instructs : Instructs place routine block instr)
    (isBehind : body.index = before + 1) (isInstr : routine.instr? body.body before = some instr)
    (repeats : Repeats frame.state body.body before instr rule number)
    (isBody : LoopBody place routine block number)
    (remains : Remains place routine block.next frame.isLoop
      ((routine.body body.body).drop body.index))
    (step : interpretStep? foreign depth left = some result) :
    KeepsUp world foreign result.1 result.2
      ⟨none, ⟨routine, params, warp, ⟨number, index, rule⟩ :: body :: bodies⟩ :: callers⟩ right := by
  have behind : Stack place.target .ready place ({ frame with pc := block.next, state := .fresh } :: rest)
      ⟨routine, params, warp, body :: bodies⟩ callers :=
    stack.move (.ready rfl remains)
  have around : ∀ {state : BlockState} {next : Rule},
      Repeats state body.body before instr next number →
      Stack place.target (.looping next number) place ({ frame with state := state } :: rest)
        ⟨routine, params, warp, body :: bodies⟩ callers :=
    fun again => stack.move (.looping faces.pc faces.found instructs isBehind isInstr again isBody remains)
  cases repeats with
  | @times count number more counter =>
      cases instructs with
      | times opcode operands isBody =>
          obtain ⟨values, other, reads, -, -⟩ := faces.operand foreign operands
          have isLeft : frame.state.counter.getD
              (StandardBlock.iterations (((block.args values).get? "TIMES").getD .empty)) = more := by
            rw [counter, Option.getD_some]
          have repeats : Repeats { frame.state with counter := some (more - 1) } body.body before
              (.times count number) (.times (more - 1)) number := .times rfl
          have isAgain : Yields (Sequence.again foreign
              ⟨routine, params, warp, ⟨number, index, .times more⟩ :: body :: bodies⟩ (.times more)) right
              (if decide (0 < more) then some (.times (more - 1)) else none) := by
            simp only [decide_eq_true_eq]
            exact .pure _ _
          exact faces.keepsUp_asked (decide (0 < more)) (by rw [opcode]; rfl) (reads depth)
            (perform_times isLeft left) isBody (step_end atEnd isAgain) (fun _ => around repeats) behind
            step
  | forever =>
      cases instructs with
      | forever opcode operands isBody =>
          obtain ⟨values, others, reads, -, -⟩ := faces.operands foreign operands
          exact faces.keepsUp_asked true (by rw [opcode]; rfl) (reads depth) rfl isBody
            (step_recheck atEnd isInstr (.pure _ _)) (fun _ => around .forever) behind step
  | whileTrue =>
      cases instructs with
      | whileTrue opcode operands isBody =>
          obtain ⟨values, other, reads, alike, yields⟩ := faces.operand foreign operands
          exact faces.keepsUp_asked other.toBool (by rw [opcode]; rfl) (reads depth)
            (perform_whileTrue alike _ _) isBody
            (step_recheck atEnd isInstr (yields.bind (.pure _ _))) (fun _ => around .whileTrue) behind step
  | untilTrue =>
      cases instructs with
      | untilTrue opcode operands isBody =>
          obtain ⟨values, other, reads, alike, yields⟩ := faces.operand foreign operands
          exact faces.keepsUp_asked (!other.toBool) (by rw [opcode]; rfl) (reads depth)
            (perform_untilTrue alike _ _) isBody
            (step_recheck atEnd isInstr (yields.bind (.pure _ _))) (fun _ => around .untilTrue) behind step

end

end StepCode
