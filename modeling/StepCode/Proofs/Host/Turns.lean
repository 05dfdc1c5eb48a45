import StepCode.Host.Tick
import StepCode.Proofs.Host.Effects
import StepCode.Proofs.Routine.Evaluation
import StepCode.Proofs.Routine.Running

/-!
# Turns

Blocks, reporters and compiled code lead on from the turn they are met with.  So a turn leads on to a
last moment, and there the thread goes on another time, is over or fails.
-/

namespace StepCode

/-! ## Blocks -/

namespace Operation

variable {call : Call}

theorem blockId?_keeps : Keeps Call.toTurn blockId? call := by
  unfold blockId?
  refine .getThen ?_
  split
  · exact .pure
  · exact .pure

theorem inScript_keeps {need : BlockNeed} : Keeps Call.toTurn (inScript need) call := by
  unfold inScript
  refine .getThen ?_
  split
  · exact .pure
  · exact .throw

theorem now_keeps : Keeps Call.toTurn now call :=
  .bind (.update (.readClock call.toTurn)) fun _ _ => .getThen .pure

theorem repeatNextTick_keeps : Keeps Call.toTurn repeatNextTick call :=
  .update (.withStatus call.toTurn (by decide))

theorem enterBranch_keeps {branch : Nat} {isLoop : Bool} :
    Keeps Call.toTurn (enterBranch branch isLoop) call :=
  .bind inScript_keeps fun _ _ => .update (.refl _)

end Operation

namespace StandardBlock

open Operation

variable {call : Call}

theorem runWait_keeps {seconds : Float} : Keeps Call.toTurn (runWait seconds) call := by
  unfold runWait
  refine .getThen (.bind now_keeps fun now _ => ?_)
  split
  · exact .bind (.update (.refl _)) fun _ _ => repeatNextTick_keeps
  · split
    · exact repeatNextTick_keeps
    · exact .pure

theorem runTimes_keeps {count : Value} : Keeps Call.toTurn (runTimes count) call := by
  unfold runTimes
  refine .getThen (.bind (.update (.refl _)) fun _ _ => ?_)
  split
  · exact enterBranch_keeps
  · exact .pure

theorem runStop_keeps {option : String} : Keeps Call.toTurn (runStop option) call := by
  unfold runStop
  split
  · exact fun _ => .stopAll call.toTurn
  · exact .getThen (.update (.requestStop call.toTurn _))
  · exact .getThen (.update (.requestStop call.toTurn _))
  · exact .bind inScript_keeps fun _ _ => .update (.refl _)

theorem runCall_keeps : Keeps Call.toTurn runCall call := by
  unfold runCall
  refine .getThen (.bind blockId?_keeps fun _ _ => ?_)
  dsimp only
  split
  · exact .bind inScript_keeps fun _ _ => .update (.refl _)
  · exact .throw

theorem runBroadcast_keeps {message : String} : Keeps Call.toTurn (runBroadcast message) call := by
  unfold runBroadcast
  exact .bind (.update (.startThreads call.toTurn _)) fun _ later =>
    .update (.withStatus later.toTurn (by decide))

theorem run_keeps {args : Table Value} (block : StandardBlock) :
    Keeps Call.toTurn (block.run args) call := by
  unfold run
  cases block with
  | pass => exact .pure
  | call => exact .bind runCall_keeps fun _ _ => .pure
  | setVariable => exact .bind (.update (.setVariable call.toTurn _ _)) fun _ _ => .pure
  | changeVariable =>
      exact .getThen (.bind (.update (.setVariable call.toTurn _ _)) fun _ _ => .pure)
  | getVariable => exact .getThen .pure
  | say => exact .bind (.update (.say call.toTurn _)) fun _ _ => .pure
  | wait => exact .bind runWait_keeps fun _ _ => .pure
  | times => exact .bind runTimes_keeps fun _ _ => .pure
  | forever => exact .bind enterBranch_keeps fun _ _ => .pure
  | ifTrue =>
      dsimp only
      split
      · exact .bind enterBranch_keeps fun _ _ => .pure
      · exact .pure
  | ifElse => exact .bind enterBranch_keeps fun _ _ => .pure
  | untilTrue =>
      dsimp only
      split
      · exact .bind enterBranch_keeps fun _ _ => .pure
      · exact .pure
  | whileTrue =>
      dsimp only
      split
      · exact .bind enterBranch_keeps fun _ _ => .pure
      · exact .pure
  | stop => exact .bind runStop_keeps fun _ _ => .pure
  | broadcast => exact .bind runBroadcast_keeps fun _ _ => .pure
  | param outside => exact .bind (.bind inScript_keeps fun _ _ => .getThen .pure) fun _ _ => .pure
  | operator op => exact .pure

end StandardBlock

section

variable {foreign : Foreign} {call : Call} {turn : Turn}

/-- A marker attaches the code it carries. -/
theorem enterMarker_keeps {source : String} : Keeps Call.toTurn (enterMarker source) call := by
  unfold enterMarker
  refine .bind Operation.blockId?_keeps fun marker later => ?_
  split
  · exact .throw
  · refine .getThen ?_
    split
    · exact .pure
    · refine .bind (.update (.of_host later.toTurn rfl rfl rfl rfl (.none rfl rfl))) fun _ _ => ?_
      dsimp only
      split
      · exact .throw
      next routine _ _ =>
        refine .bind (.update (.of_host _ rfl rfl rfl rfl (.none rfl rfl))) fun _ _ => ?_
        refine .bind (.update (.of_thread _ rfl rfl rfl ?_ fun alive frames => ⟨alive, frames⟩)) ?_
        · rintro - _ ⟨⟩
          exact .outermost _
        · exact fun _ _ => .bind Operation.repeatNextTick_keeps fun _ _ => .pure

theorem dispatch_keeps {opcode : String} {args : Table Value} :
    Keeps Call.toTurn (dispatch foreign opcode args) call := by
  unfold dispatch
  split
  next block _ => exact block.run_keeps
  next =>
    split
    · exact .pure
    next extension inner _ =>
      intro native
      refine Keeps.getThen ?_ native
      split
      · exact .pure
      · unfold supportCall
        split
        · exact enterMarker_keeps
        · exact .pure
      next info found => exact (native extension info found).elim

theorem perform_dispatch_leads (foreign : Foreign) (opcode : String) (args : Table Value)
    (site : Site) (state : BlockState) (native : turn.host.Native) :
    turn.Leads ((dispatch foreign opcode args).perform site state turn).2.toTurn :=
  have keeps : Keeps Call.toTurn (dispatch foreign opcode args) ⟨turn, site, state, .none⟩ :=
    dispatch_keeps
  keeps native

/-! ## Compiled code -/

theorem runBlock_keeps {opcode : String} {args : Table Value} {state : BlockState} :
    Keeps id (runBlock foreign opcode args state) turn := by
  intro native
  have leads : turn.Leads _ := perform_dispatch_leads foreign opcode args .compiled state native
  change turn.Leads (runBlock foreign opcode args state turn).2
  unfold runBlock
  split
  next performed => rwa [performed] at leads
  next performed => rwa [performed] at leads

theorem reportBlock_keeps {opcode : String} {args : Table Value} :
    Keeps id (reportBlock foreign opcode args) turn :=
  .bind runBlock_keeps fun _ later => .bind (.update (.wake later)) fun _ _ => .pure

end

section

variable {foreign : Foreign} {routine : Routine} {params : Table Value} {turn : Turn}

/-- Evaluation leads on, since its parts do. -/
theorem evaluative_keeps : Evaluative foreign (fun _ => True) fun _ act => ∀ turn, Keeps id act turn where
  pure _ _ := .pure
  throw _ _ := .throw
  get _ := .getThen .pure
  elapsed turn := .bind (.update (.readClock turn)) fun _ _ => .getThen .pure
  bind first rest turn := .bind (first turn) rest
  report _ _ _ := reportBlock_keeps

theorem eval_keeps {expr : Expr} : Keeps id (eval foreign routine params expr) turn :=
  evaluative_keeps.eval expr turn

theorem evalNamed_keeps {args : List (String × Expr)} :
    Keeps id (evalNamed foreign routine params args) turn :=
  evaluative_keeps.evalNamed args turn

end

namespace Sequence

variable {foreign : Foreign} {call : Activation} {callers : List Activation} {turn : Turn}

theorem leave_keeps {value : Value} : Keeps id (leave value callers) turn := by
  unfold leave
  split
  · exact .pure
  · refine .getThen ?_
    split
    · exact .pure
    · exact .pure

theorem stepPending_keeps {op : PendingOp} : Keeps id (stepPending foreign op callers) turn := by
  unfold stepPending
  refine .bind runBlock_keeps fun completion later => .getThen ?_
  split
  · exact .pure
  · split
    · exact .bind (.set (.withStatus later (by decide))) fun _ _ => .pure
    · split
      · exact .pure
      · exact .pure

theorem resolve_keeps {signature : String} : Keeps id (resolve signature) turn := by
  unfold resolve
  refine .getThen ?_
  split
  · split
    · exact .throw
    · exact .bind (.set (.of_host turn rfl rfl rfl rfl (.none rfl rfl))) fun _ _ => .pure
  · exact .throw

theorem loopsOn_keeps {loop : Option Instr} : Keeps id (loopsOn foreign call loop) turn := by
  unfold loopsOn
  split
  · exact .pure
  · exact .bind eval_keeps fun _ _ => .pure
  · exact .bind eval_keeps fun _ _ => .pure
  · exact .pure

theorem again_keeps {rule : Rule} : Keeps id (again foreign call rule) turn := by
  cases rule with
  | once => exact .pure
  | times left => exact .pure
  | recheck owner index => exact .bind loopsOn_keeps fun _ _ => .pure

theorem givesUp_keeps {warp : Bool} : Keeps id (givesUp warp) turn := by
  cases warp with
  | false => exact .pure
  | true => exact .bind (.update (.readClock turn)) fun _ _ => .getThen .pure

theorem execute_keeps {owner index : Nat} {instr : Instr} :
    Keeps id (execute foreign call callers owner index instr) turn := by
  unfold execute
  cases instr with
  | set var expr =>
      exact .bind eval_keeps fun _ later => .bind (.update (.setVariable later _ _)) fun _ _ => .pure
  | change var amount =>
      exact .bind eval_keeps fun _ later => .bind (.update (.setVariable later _ _)) fun _ _ => .pure
  | op opcode args => exact .bind evalNamed_keeps fun _ _ => .pure
  | call signature args =>
      refine .bind (.mapM fun _ _ => eval_keeps) fun _ _ => .bind resolve_keeps fun procedure _ => ?_
      cases procedure with
      | none => exact leave_keeps
      | some routine => exact .pure
  | yield => exact .bind givesUp_keeps fun _ _ => .pure
  | times count body => exact .bind eval_keeps fun _ _ => .pure
  | forever body => exact .pure
  | whileTrue cond body => exact .bind eval_keeps fun _ _ => .pure
  | untilTrue cond body => exact .bind eval_keeps fun _ _ => .pure
  | ifElse cond yes no => exact .bind eval_keeps fun _ _ => .pure
  | ret result =>
      cases result with
      | none => exact leave_keeps
      | some expr => exact .bind eval_keeps fun _ _ => leave_keeps

theorem resume_keeps (sequence : Sequence) : Keeps id (sequence.resume foreign) turn := by
  obtain ⟨pending, calls⟩ := sequence
  cases pending with
  | some op => exact stepPending_keeps
  | none =>
      cases calls with
      | nil => exact .pure
      | cons call callers =>
          change Keeps id (stepCall foreign call callers) turn
          unfold stepCall
          split
          · exact leave_keeps
          · split
            · exact execute_keeps
            · refine .bind again_keeps fun rule _ => ?_
              cases rule with
              | none => exact .pure
              | some rule => exact .pure

theorem heed_keeps {response : Response} : Keeps id (heed response) turn := by
  cases response with
  | more sequence => exact .pure
  | done value => exact .pure
  | yield sequence =>
      refine .getThen ?_
      split
      · exact .pure
      · split
        · exact .bind (.set (.withStatus turn (by decide))) fun _ _ => .pure
        · exact .pure

theorem step_keeps (sequence : Sequence) : Keeps id (sequence.step foreign) turn :=
  .bind (resume_keeps sequence) fun _ _ => heed_keeps

/-- Whatever compiled code comes to in its turn leads on. -/
theorem Visits.leads {start moment : Sequence × Turn} (visits : Visits foreign start moment)
    (native : start.2.host.Native) : start.2.Leads moment.2 := by
  induction visits with
  | refl => exact .refl _
  | @tail middle later _ steps ih =>
      have keeps : Keeps id (middle.1.step foreign) middle.2 := step_keeps middle.1
      have leads : middle.2.Leads _ := keeps (ih.native native)
      rw [steps] at leads
      exact ih.trans leads

/-- Compiled code leads on, however far it runs. -/
theorem run?_leads {fuel : Nat} {sequence : Sequence} {after : Turn}
    {outcome : Except RunError Rest} (native : turn.host.Native)
    (done : sequence.run? foreign fuel turn = some (outcome, after)) : turn.Leads after := by
  obtain ⟨moment, visits, ends⟩ := RestsWith.of_run? done
  have before : turn.Leads moment.2 := visits.leads native
  have keeps : Keeps id (moment.1.step foreign) moment.2 := step_keeps moment.1
  have leads : moment.2.Leads _ := keeps (before.native native)
  rw [ends] at leads
  exact before.trans leads

end Sequence

/-! ## The block interpreter -/

section

variable {foreign : Foreign} {turn : Turn}

theorem report_keeps {block opcode : String} {args : Table Value} :
    Keeps id (report foreign block opcode args) turn := by
  intro native
  have leads : turn.Leads _ := perform_dispatch_leads foreign opcode args (.block block) .fresh native
  change turn.Leads (report foreign block opcode args turn).2
  unfold report
  split
  next performed => rwa [performed] at leads
  next performed => rwa [performed] at leads

theorem readArgs_keeps {slot : String → Reading Value} {block : Block}
    (slotKeeps : ∀ name later, Keeps id (slot name) later) : Keeps id (readArgs slot block) turn := by
  unfold readArgs
  refine .bind (.mapM fun name later => ?_) fun _ _ => .pure
  exact .bind (slotKeeps name later) fun _ _ => .pure

theorem readSlotWith_keeps {run : String → Block → Reading Value} {block : Block} {slot : String}
    (runKeeps : ∀ name reporter later, Keeps id (run name reporter) later) :
    Keeps id (readSlotWith run block slot) turn := by
  unfold readSlotWith
  split
  · exact .pure
  · exact .pure
  · exact .getThen .pure
  · refine .getThen ?_
    split
    · exact .throw
    · exact runKeeps _ _ turn

theorem readReporter_keeps {depth : Nat} (name : String) (reporter : Block) (turn : Turn) :
    Keeps id (readReporter foreign depth name reporter) turn := by
  induction depth generalizing name reporter turn with
  | zero => exact .throw
  | succ depth ih =>
      unfold readReporter
      split
      · exact .pure
      · refine .bind (readArgs_keeps fun _ _ => readSlotWith_keeps ih) ?_
        exact fun _ _ => report_keeps

theorem runBlockAt_keeps {depth : Nat} {name : String} :
    Keeps id (runBlockAt foreign depth name) turn := by
  unfold runBlockAt
  refine .getThen ?_
  split
  · exact .throw
  next block _ =>
    refine .bind (readArgs_keeps fun _ _ => readSlotWith_keeps readReporter_keeps) ?_
    intro args later native
    have leads : later.Leads _ :=
      perform_dispatch_leads foreign block.opcode args (.block name) later.thread.blockState native
    refine Keeps.getThen ?_ native
    generalize (dispatch foreign block.opcode args).perform (.block name) later.thread.blockState later
      = performed at leads ⊢
    obtain ⟨result, call⟩ := performed
    refine .bind (.set (leads.trans (.mapFrame call.toTurn _))) fun _ _ => ?_
    cases result with
    | error error => exact .throw
    | ok value => exact .pure

end

namespace Turn

variable {foreign : Foreign} {turn after : Turn}

/-- How a turn comes to its end: after all that it leads to, the thread goes on another time, or it
is over, or it has failed. -/
inductive Ends (turn : Turn) : Turn → Prop
  | onward {last : Turn} (leads : turn.Leads last) : Ends turn last
  | ended {last : Turn} (leads : turn.Leads last) : Ends turn last.retire
  | failed {last : Turn} (leads : turn.Leads last) (error : RunError) : Ends turn (last.fail error)

theorem Ends.after_leads {middle : Turn} (leads : turn.Leads middle) (ends : middle.Ends after) :
    turn.Ends after := by
  cases ends with
  | onward later => exact .onward (leads.trans later)
  | ended later => exact .ended (leads.trans later)
  | failed later error => exact .failed (leads.trans later) error

/-- What a step of the interpreter may come to: it leads on, or the thread is done. -/
def Advances (turn after : Turn) : Prop :=
  turn.Leads after ∨ turn.Ends after ∧ after.thread.isDone = true

theorem moveOn_leads (turn : Turn) : turn.Leads turn.moveOn := .mapFrame turn _

theorem iterationOver_leads (turn : Turn) : turn.Leads turn.iterationOver.1 := by
  unfold iterationOver
  dsimp only
  split
  · split
    · exact (Leads.readClock turn).trans (.withStatus turn.readClock (by decide))
    · exact .readClock turn
  · exact .withStatus turn (by decide)

theorem retire_advances (turn : Turn) : turn.Advances turn.retire :=
  .inr ⟨.ended (.refl turn), rfl⟩

theorem leaveFrame_advances (turn : Turn) : turn.Advances turn.leaveFrame.1 := by
  unfold leaveFrame
  split
  · exact retire_advances turn
  · exact retire_advances turn
  next frame rest notLast _ =>
    have left : turn.Leads { turn with thread := { turn.thread with frames := rest } } :=
      .of_thread turn rfl rfl rfl (fun coded => coded) fun alive _ => ⟨alive, notLast⟩
    refine .inl ?_
    dsimp only
    split
    · exact left.trans (iterationOver_leads _)
    · exact left

theorem leaveProcedure_advances (turn : Turn) : turn.Advances turn.leaveProcedure := by
  unfold leaveProcedure
  split
  · exact retire_advances turn
  next inside =>
    exact .inl (.of_thread turn rfl rfl rfl (fun coded => coded) fun alive _ => ⟨alive, inside⟩)

theorem push_leads (turn : Turn) (frame : Frame) :
    turn.Leads { turn with thread := turn.thread.push frame } :=
  .of_thread turn rfl rfl rfl (fun coded => coded) fun alive _ => ⟨alive, List.cons_ne_nil _ _⟩

theorem apply_advances (turn : Turn) (flow : Flow) : turn.Advances (flow.apply turn).1 := by
  cases flow with
  | next => exact .inl (moveOn_leads turn)
  | stay => exact .inl (.refl turn)
  | branch substack isLoop =>
      cases substack with
      | some substack =>
          cases isLoop with
          | true => exact .inl (push_leads turn _)
          | false => exact .inl ((moveOn_leads turn).trans (push_leads _ _))
      | none =>
          cases isLoop with
          | true => exact .inl (iterationOver_leads turn)
          | false => exact .inl (moveOn_leads turn)
  | call definition params warp => exact .inl ((moveOn_leads turn).trans (push_leads _ _))
  | leave => exact leaveProcedure_advances turn

theorem Advances.after_leads {middle : Turn} (leads : turn.Leads middle)
    (advances : middle.Advances after) : turn.Advances after :=
  advances.imp leads.trans fun ends => ⟨.after_leads leads ends.1, ends.2⟩

/-- A step of the interpreter: nothing is left to do, a chain is at its end, or a block is run, which
decides how the thread goes on or fails. -/
inductive Steps (foreign : Foreign) (depth : Nat) (turn : Turn) : Turn × Bool → Prop
  | emptied (nothing : turn.thread.frames = []) : Steps foreign depth turn (turn.retire, false)
  | atEnd {frame : Frame} {callers : List Frame} (frames : turn.thread.frames = frame :: callers)
      (isEnd : frame.pc = none) : Steps foreign depth turn turn.leaveFrame
  | ran {frame : Frame} {callers : List Frame} {id : String} {flow : Flow} {last : Turn}
      (frames : turn.thread.frames = frame :: callers) (next : frame.pc = some id)
      (runs : (runBlockAt foreign depth id).run.run turn = (.ok flow, last)) :
      Steps foreign depth turn (flow.apply last)
  | failed {frame : Frame} {callers : List Frame} {id : String} {error : RunError} {last : Turn}
      (frames : turn.thread.frames = frame :: callers) (next : frame.pc = some id)
      (raised : (runBlockAt foreign depth id).run.run turn = (.error (.failed error), last)) :
      Steps foreign depth turn (last.fail error, false)

theorem interpretStep?_steps {depth : Nat} {result : Turn × Bool}
    (stepped : interpretStep? foreign depth turn = some result) :
    turn.Steps foreign depth result := by
  unfold interpretStep? at stepped
  split at stepped
  next nothing =>
    obtain rfl := Option.some.inj stepped
    exact .emptied nothing
  next frame callers frames =>
    split at stepped
    next isEnd =>
      obtain rfl := Option.some.inj stepped
      exact .atEnd frames isEnd
    next id next =>
      split at stepped
      next flow last runs =>
        obtain rfl := Option.some.inj stepped
        exact .ran frames next runs
      next error last raised =>
        obtain rfl := Option.some.inj stepped
        exact .failed frames next raised
      next => cases stepped

/-- Running a block leads on to what has come of it. -/
theorem runBlockAt_leads {depth : Nat} {name : String} {outcome : Except Fault Flow} {last : Turn}
    (native : turn.host.Native) (ran : (runBlockAt foreign depth name).run.run turn = (outcome, last)) :
    turn.Leads last := by
  have keeps : Keeps id (runBlockAt foreign depth name) turn := runBlockAt_keeps
  have leads : turn.Leads _ := keeps native
  rwa [ran] at leads

theorem interpretStep?_advances {depth : Nat} {goesOn : Bool} (native : turn.host.Native)
    (stepped : interpretStep? foreign depth turn = some (after, goesOn)) : turn.Advances after := by
  have steps := interpretStep?_steps stepped
  generalize isResult : (after, goesOn) = result at steps
  cases steps with
  | emptied =>
      obtain ⟨rfl, -⟩ := Prod.mk.inj isResult
      exact retire_advances turn
  | atEnd =>
      have left := leaveFrame_advances turn
      rwa [← isResult] at left
  | @ran _ _ _ flow last _ _ runs =>
      have applied := apply_advances last flow
      rw [← isResult] at applied
      exact .after_leads (runBlockAt_leads native runs) applied
  | failed _ _ raised =>
      obtain ⟨rfl, -⟩ := Prod.mk.inj isResult
      exact .inr ⟨.failed (runBlockAt_leads native raised) _, rfl⟩

/-- A run of the interpreter, step after step. -/
inductive Interprets (foreign : Foreign) (depth : Nat) : Turn → Turn → Prop
  | rests {turn : Turn} (resting : turn.thread.status ≠ .running) : Interprets foreign depth turn turn
  | last {turn after : Turn} (running : turn.thread.status = .running)
      (stepped : interpretStep? foreign depth turn = some (after, false)) :
      Interprets foreign depth turn after
  | onward {turn middle after : Turn} (running : turn.thread.status = .running)
      (stepped : interpretStep? foreign depth turn = some (middle, true))
      (rest : Interprets foreign depth middle after) : Interprets foreign depth turn after

theorem interprets_of_interpret? {depth fuel : Nat}
    (ran : interpret? foreign depth fuel turn = some after) :
    turn.Interprets foreign depth after := by
  induction fuel generalizing turn with
  | zero =>
      unfold interpret? at ran
      split at ran
      next resting =>
        obtain rfl := Option.some.inj ran
        exact .rests resting
      next => cases ran
  | succ fuel ih =>
      unfold interpret? at ran
      split at ran
      next resting =>
        obtain rfl := Option.some.inj ran
        exact .rests resting
      next isRunning =>
        have running := not_not.mp isRunning
        dsimp only at ran
        split at ran
        next => cases ran
        next middle stepped =>
          obtain rfl := Option.some.inj ran
          exact .last running stepped
        next middle stepped => exact .onward running stepped (ih ran)

/-- The interpreter does nothing for a thread that is over. -/
theorem Interprets.eq_of_isDone {depth : Nat} (interprets : turn.Interprets foreign depth after)
    (isDone : turn.thread.isDone = true) : after = turn := by
  have ended := Thread.isDone_iff.mp isDone
  cases interprets with
  | rests => rfl
  | last running => cases ended.symm.trans running
  | onward running => cases ended.symm.trans running

theorem Interprets.ends {depth : Nat} (native : turn.host.Native)
    (interprets : turn.Interprets foreign depth after) : turn.Ends after := by
  induction interprets with
  | @rests turn => exact .onward (.refl turn)
  | last _ stepped => exact (interpretStep?_advances native stepped).elim .onward And.left
  | onward _ stepped rest ih =>
      rcases interpretStep?_advances native stepped with leads | ⟨ends, isDone⟩
      · exact .after_leads leads (ih (leads.native native))
      · -- the interpreter is asked to go on, and finds that the thread is done
        obtain rfl := rest.eq_of_isDone isDone
        exact ends

/-! ## Whole turns -/

/-- The code of the thread is taken up. -/
def detached (turn : Turn) : Turn := { turn with thread := { turn.thread with compiled := none } }

/-- What becomes of a thread whose code has come to rest. -/
def settle? (foreign : Foreign) (limits : Limits) (last : Turn) : Except RunError Rest → Option Turn
  | .error error => some (last.fail error)
  | .ok rest =>
      if last.thread.isDone then some last
      else
        match rest with
        | .suspended later => some { last with thread := { last.thread with compiled := some later } }
        | .ended _ => last.finish? foreign limits
        | .retired => some last

/-- With compiled code, a turn is a run of the code and what becomes of the thread then. -/
theorem take?_of_code {limits : Limits} {sequence : Sequence}
    (isCode : turn.thread.compiled = some sequence) :
    turn.take? foreign limits = (sequence.run? foreign limits.steps turn.detached).bind
      fun rested => settle? foreign limits rested.2 rested.1 := by
  have isDetached : { turn with thread := { turn.thread with compiled := none } } = turn.detached := rfl
  simp only [take?, isCode, isDetached]
  cases sequence.run? foreign limits.steps turn.detached with
  | none => rfl
  | some rested =>
      obtain ⟨outcome, last⟩ := rested
      cases outcome <;> rfl

theorem detached_leads (turn : Turn) : turn.Leads turn.detached :=
  .of_thread turn rfl rfl rfl (fun _ => nofun) fun alive frames => ⟨alive, frames⟩

/-- What becomes of a thread whose code has come to rest is an end of its turn. -/
theorem settle?_ends {limits : Limits} {last : Turn} {rested : Except RunError Rest}
    (native : turn.host.Native) (leads : turn.Leads last)
    (lineal : turn.thread.Coded → ∀ later, rested = .ok (.suspended later) → Lineal later.calls)
    (settled : settle? foreign limits last rested = some after) : turn.Ends after := by
  cases rested with
  | error error =>
      obtain rfl := Option.some.inj settled
      exact .failed leads error
  | ok rest =>
      unfold settle? at settled
      dsimp only at settled
      split at settled
      · obtain rfl := Option.some.inj settled
        exact .onward leads
      · cases rest with
        | suspended later =>
            obtain rfl := Option.some.inj settled
            refine .onward { leads with coded := fun coded => ?_, live := leads.live }
            rintro _ ⟨⟩
            exact lineal coded later rfl
        | ended value =>
            have onward := leads.trans (moveOn_leads last)
            exact .after_leads onward ((interprets_of_interpret? settled).ends (onward.native native))
        | retired =>
            obtain rfl := Option.some.inj settled
            exact .onward leads

/-- Whatever a thread does at its turn, it leads on to a last moment, and there the thread goes on
another time, is over or fails. -/
theorem take?_ends {limits : Limits} (native : turn.host.Native)
    (taken : turn.take? foreign limits = some after) : turn.Ends after := by
  cases isCode : turn.thread.compiled with
  | none =>
      unfold take? at taken
      rw [isCode] at taken
      exact (interprets_of_interpret? taken).ends native
  | some sequence =>
      rw [take?_of_code isCode] at taken
      obtain ⟨⟨rested, last⟩, ran, settled⟩ := Option.bind_eq_some_iff.mp taken
      refine settle?_ends native ((detached_leads turn).trans (Sequence.run?_leads native ran)) ?_ settled
      rintro coded later rfl
      exact Sequence.lineal_of_run? (coded sequence isCode) ran

end Turn

end StepCode
