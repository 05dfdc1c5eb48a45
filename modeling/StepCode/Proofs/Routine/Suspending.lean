import StepCode.Proofs.Routine.Driving
import StepCode.Proofs.Routine.Evaluation

/-!
# Where compiled code pauses

Compiled code gives up a tick in two places: at an explicit yield of a call that is not in warp mode,
or of any call once the tick is overdue, and at a block that has to run again.  That blocks and
reporters give up the tick counts for nothing: whenever a step begins, the thread is running, unless it
is done.
-/

namespace StepCode

/-! ## Warp mode -/

/-- The statement that a call has come past last. -/
def Activation.last? (call : Activation) : Option Instr :=
  match call.frames with
  | ⟨body, index + 1, _⟩ :: _ => call.routine.instr? body index
  | _ => none

/-- The innermost of the calls has been entered in warp mode: the code itself has, or the signature
of the call says so, or its caller is in warp mode. -/
inductive InWarpMode : List Activation → Prop
  | directly {call : Activation} (entered : call.warp = true) : InWarpMode [call]
  | signature {callee caller : Activation} {callers : List Activation} {signature : String}
      {args : List Expr} (made : caller.last? = some (.call signature args))
      (warps : Sequence.inWarp signature = true) : InWarpMode (callee :: caller :: callers)
  | caller {callee caller : Activation} {callers : List Activation}
      (outer : InWarpMode (caller :: callers)) : InWarpMode (callee :: caller :: callers)

/-- Each of the calls has been made by a statement of the next one, and has taken over its warp
mode. -/
inductive Lineal : List Activation → Prop
  | outermost (call : Activation) : Lineal [call]
  | made {callee caller : Activation} {callers : List Activation} {signature : String}
      {args : List Expr} (made : caller.last? = some (.call signature args))
      (warp : callee.warp = (caller.warp || Sequence.inWarp signature))
      (outer : Lineal (caller :: callers)) : Lineal (callee :: caller :: callers)

namespace Lineal

variable {call other : Activation} {callers : List Activation}

/-- The innermost call goes on. -/
theorem goOn (lineal : Lineal (call :: callers)) (warp : other.warp = call.warp) :
    Lineal (other :: callers) := by
  cases lineal with
  | outermost => exact .outermost other
  | made made taken outer => exact .made made (warp.trans taken) outer

/-- The innermost call is over. -/
theorem leave (lineal : Lineal (call :: callers)) (inside : callers ≠ []) : Lineal callers := by
  cases lineal with
  | outermost => exact (inside rfl).elim
  | made _ _ outer => exact outer

theorem inWarpMode_iff (lineal : Lineal (call :: callers)) :
    InWarpMode (call :: callers) ↔ call.warp = true := by
  generalize isCalls : call :: callers = calls at lineal
  induction lineal generalizing call callers with
  | outermost =>
      obtain ⟨rfl, rfl⟩ := List.cons.inj isCalls
      exact ⟨fun | .directly entered => entered, .directly⟩
  | made made warp outer ih =>
      obtain ⟨rfl, rfl⟩ := List.cons.inj isCalls
      rw [warp, Bool.or_eq_true, ← ih rfl]
      constructor
      · rintro (_ | ⟨madeBy, warps⟩ | inWarp)
        · obtain ⟨rfl, -⟩ := Instr.call.inj (Option.some.inj (madeBy.symm.trans made))
          exact .inr warps
        · exact .inl inWarp
      · exact fun
          | .inl inWarp => .caller inWarp
          | .inr warps => .signature made warps

end Lineal

/-! ## Steps -/

/-- The thread of the turn has not given up the tick. -/
def Turn.Awake (turn : Turn) : Prop := turn.thread.status ≠ .yielded

theorem Turn.awake_of_isDone (turn : Turn) (isDone : turn.thread.isDone = true) : turn.Awake := by
  intro yielded
  rw [Thread.isDone, yielded] at isDone
  cases isDone

/-- If the thread had not given up the tick at the first moment, it has not at the second one. -/
def Turn.StaysAwake (start after : Turn) : Prop := start.Awake → after.Awake

theorem Thread.wake_ne_yielded (thread : Thread) : thread.wake.status ≠ .yielded := by
  unfold wake
  split
  · exact nofun
  next awake => exact awake

/-- If the computation succeeds, it ends with `post`. -/
def Ensures {α : Type} (post : α → Turn → Prop) (act : Act α) (turn : Turn) : Prop :=
  ∀ value after, act.run.run turn = (.ok value, after) → post value after

namespace Ensures

variable {α β : Type} {post : α → Turn → Prop} {goal : β → Turn → Prop} {turn : Turn}

theorem pure {value : α} (holds : post value turn) : Ensures post (Pure.pure value) turn := by
  rintro _ _ ⟨⟩
  exact holds

theorem throw {error : RunError} : Ensures post (MonadExcept.throw error) turn := nofun

theorem bind {act : Act α} {next : α → Act β} (first : Ensures post act turn)
    (rest : ∀ value later, post value later → Ensures goal (next value) later) :
    Ensures goal (act >>= next) turn := by
  intro value after ran
  rw [ExceptT.run_bind, StateT.run_bind] at ran
  cases result : act.run.run turn with
  | mk outcome middle =>
      rw [result] at ran
      cases outcome with
      | error => cases ran
      | ok first' => exact rest first' middle (first first' middle result) value after ran

theorem getThen {next : Turn → Act β} (rest : Ensures goal (next turn) turn) :
    Ensures goal (MonadState.get >>= next) turn := rest

theorem setThen {later : Turn} {next : PUnit → Act β} (rest : Ensures goal (next ⟨⟩) later) :
    Ensures goal (MonadState.set later >>= next) turn := rest

theorem updateThen {change : Turn → Turn} {next : PUnit → Act β}
    (rest : Ensures goal (next ⟨⟩) (change turn)) : Ensures goal (modify change >>= next) turn := rest

/-- All that is known is how the computation went. -/
theorem ran {act : Act α} : Ensures (fun value after => act.run.run turn = (.ok value, after)) act turn :=
  fun _ _ went => went

end Ensures

/-- The computation does not leave the tick given up. -/
def Wakeful {α : Type} (act : Act α) : Prop :=
  ∀ start turn : Turn, start.StaysAwake turn → Ensures (fun _ after => start.StaysAwake after) act turn

section

variable {foreign : Foreign} {routine : Routine} {params : Table Value}

theorem reportBlock_wakeful (opcode : String) (args : Table Value) :
    Wakeful (reportBlock foreign opcode args) := by
  refine fun _ turn _ => .bind .ran fun completion later _ => .updateThen ?_
  exact .pure fun _ => later.thread.wake_ne_yielded

/-- What a reporter did to the status of the thread is gone when its value is there. -/
theorem evaluative_wakeful : Evaluative foreign (fun _ => True) fun _ act => Wakeful act where
  pure _ _ _ awake := .pure awake
  throw _ _ _ _ := .throw
  get _ _ awake := .getThen (.pure awake)
  bind first rest start turn awake :=
    .bind (first start turn awake) fun value later => rest value start later
  elapsed _ _ awake := .updateThen (.getThen (.pure awake))
  report := reportBlock_wakeful

end

/-- What code may answer when it is resumed.  Where it breaks off, the thread has been ended, or a block
that is finished has given up the tick, which is so only if the code `waits` for one, or it `pauses`. -/
inductive Response.Fits (start : Turn) (waits pauses : Prop) : Response → Turn → Prop
  | more {later : Sequence} {after : Turn} (awake : start.StaysAwake after)
      (lineal : Lineal later.calls) : Fits start waits pauses (.more later) after
  | done {value : Value} {after : Turn} (awake : start.StaysAwake after) :
      Fits start waits pauses (.done value) after
  | ended {later : Sequence} {after : Turn} (isDone : after.thread.isDone = true) :
      Fits start waits pauses (.yield later) after
  | passed {later : Sequence} {after : Turn} (gaveUp : after.thread.status = .yielded)
      (lineal : Lineal later.calls) (waiting : waits) : Fits start waits pauses (.yield later) after
  | paused {later : Sequence} {after : Turn} (awake : start.StaysAwake after)
      (lineal : Lineal later.calls) (pausing : pauses) : Fits start waits pauses (.yield later) after

theorem Response.Fits.mono {start after : Turn} {waits pauses other farther : Prop} {response : Response}
    (fits : response.Fits start waits pauses after) (waiting : waits → other)
    (pausing : pauses → farther) : response.Fits start other farther after := by
  cases fits with
  | more awake lineal => exact .more awake lineal
  | done awake => exact .done awake
  | ended isDone => exact .ended isDone
  | passed gaveUp lineal here => exact .passed gaveUp lineal (waiting here)
  | paused awake lineal here => exact .paused awake lineal (pausing here)

/-- What a step may come to.  If it ends the tick on a thread that is not done, the code `pauses`. -/
structure Step.Fits (start : Turn) (pauses : Prop) (step : Step) (after : Turn) : Prop where
  awake : start.StaysAwake after
  more : ∀ later, step = .more later → Lineal later.calls
  suspended : ∀ later, step = .rest (.suspended later) → Lineal later.calls ∧ pauses
  retired : step = .rest .retired → after.thread.isDone = true

theorem Step.Fits.mono {start after : Turn} {pauses farther : Prop} {step : Step}
    (fits : step.Fits start pauses after) (implies : pauses → farther) :
    step.Fits start farther after :=
  { fits with suspended := fun later rests => (fits.suspended later rests).imp_right implies }

/-- The status of the thread tells why code breaks off. -/
theorem Response.Fits.heed {start turn : Turn} {waits pauses : Prop} {response : Response}
    (fits : response.Fits start waits pauses turn) :
    Ensures (Step.Fits start pauses) (Sequence.heed response) turn := by
  intro step after ran
  cases response with
  | more later =>
      obtain ⟨⟨⟩, rfl⟩ := Prod.mk.inj ran
      cases fits with
      | more awake lineal => exact ⟨awake, by rintro _ ⟨⟩; exact lineal, nofun, nofun⟩
  | done value =>
      obtain ⟨⟨⟩, rfl⟩ := Prod.mk.inj ran
      cases fits with
      | done awake => exact ⟨awake, nofun, nofun, nofun⟩
  | yield later =>
      rw [Sequence.run_heed_yield] at ran
      split at ran
      next isDone =>
        obtain ⟨⟨⟩, rfl⟩ := Prod.mk.inj ran
        exact ⟨fun _ => turn.awake_of_isDone isDone, nofun, nofun, fun _ => isDone⟩
      next going =>
        have lineal : Lineal later.calls := by
          cases fits with
          | ended isDone => exact (going isDone).elim
          | passed _ lineal _ => exact lineal
          | paused _ lineal _ => exact lineal
        split at ran
        next =>
          obtain ⟨⟨⟩, rfl⟩ := Prod.mk.inj ran
          exact ⟨fun _ => turn.thread.wake_ne_yielded, by rintro _ ⟨⟩; exact lineal, nofun, nofun⟩
        next kept =>
          obtain ⟨⟨⟩, rfl⟩ := Prod.mk.inj ran
          cases fits with
          | ended isDone => exact (going isDone).elim
          | passed gaveUp => exact (kept gaveUp).elim
          | paused awake _ pausing =>
              exact ⟨awake, nofun, by rintro _ ⟨⟩; exact ⟨lineal, pausing⟩, nofun⟩

namespace Sequence

/-- The places where compiled code gives up the tick: a yield, unless the call is in warp mode and the
tick, by the clock as it is read there, is not overdue; and a block that has to run again. -/
inductive Pauses (foreign : Foreign) : Sequence → Turn → Prop
  | yield {call : Activation} {callers : List Activation} {turn : Turn}
      (stands : instr? ⟨none, call :: callers⟩ = some .yield)
      (allowed : ¬ InWarpMode (call :: callers) ∨ turn.host.readClock.isOverdue = true)
      (going : turn.thread.isDone = false) : Pauses foreign ⟨none, call :: callers⟩ turn
  | rerun {op : PendingOp} {calls : List Activation} {turn after : Turn} {completion : Completion}
      (ran : (runBlock foreign op.opcode op.args op.state).run.run turn = (.ok completion, after))
      (again : completion.finished = false) (going : after.thread.isDone = false) :
      Pauses foreign ⟨some op, calls⟩ turn

section

variable {foreign : Foreign} {call : Activation} {callers : List Activation}
  {start turn : Turn} {waits pauses : Prop}

theorem leave_fits {value : Value} (lineal : callers ≠ [] → Lineal callers) (awake : start.StaysAwake turn) :
    Ensures (Response.Fits start waits pauses) (leave value callers) turn := by
  unfold leave
  split
  next => exact .pure (.done awake)
  next inside =>
    refine .getThen ?_
    split
    next isDone => exact .pure (.ended isDone)
    next => exact .pure (.more awake (lineal inside))

theorem eval_wakeful {routine : Routine} {params : Table Value} {expr : Expr}
    (awake : start.StaysAwake turn) :
    Ensures (fun _ after => start.StaysAwake after) (eval foreign routine params expr) turn :=
  evaluative_wakeful.eval expr start turn awake

theorem resolve_wakeful {signature : String} (awake : start.StaysAwake turn) :
    Ensures (fun _ after => start.StaysAwake after) (resolve signature) turn := by
  unfold resolve
  refine .getThen ?_
  split
  · split
    · exact .throw
    · exact .setThen (.pure awake)
  · exact .throw

theorem again_wakeful {rule : Rule} (awake : start.StaysAwake turn) :
    Ensures (fun _ after => start.StaysAwake after) (again foreign call rule) turn := by
  cases rule with
  | once => exact .pure awake
  | times left => exact .pure awake
  | recheck owner index =>
      have asked : Ensures (fun _ after => start.StaysAwake after)
          (loopsOn foreign call (call.routine.instr? owner index)) turn := by
        unfold loopsOn
        split
        · exact .pure awake
        · exact .bind (eval_wakeful awake) fun _ _ awake => .pure awake
        · exact .bind (eval_wakeful awake) fun _ _ awake => .pure awake
        · exact .pure awake
      exact .bind asked fun _ _ awake => .pure awake

/-- Whether a yield counts is asked of the clock, if of anything, and the thread stays as it is. -/
theorem givesUp_fits {warp : Bool} :
    Ensures (fun counts after => after.thread = turn.thread ∧
      (counts = true → warp = false ∨ turn.host.readClock.isOverdue = true)) (givesUp warp) turn := by
  intro counts after ran
  cases warp with
  | false =>
      obtain ⟨-, rfl⟩ := Prod.mk.inj ((run_givesUp_outside turn).symm.trans ran)
      exact ⟨rfl, fun _ => .inl rfl⟩
  | true =>
      obtain ⟨isCount, rfl⟩ := Prod.mk.inj ((run_givesUp_inWarp turn).symm.trans ran)
      obtain rfl := Except.ok.inj isCount
      exact ⟨rfl, .inr⟩

/-- The call stands behind the statement already. -/
theorem execute_fits {owner index : Nat} {instr : Instr} (lineal : Lineal (call :: callers))
    (passed : call.last? = some instr) (awake : start.StaysAwake turn) :
    Ensures
      (Response.Fits start False
        (instr = .yield ∧ (call.warp = false ∨ turn.host.readClock.isOverdue = true) ∧
          turn.thread.isDone = false))
      (execute foreign call callers owner index instr) turn := by
  unfold execute
  cases instr with
  | set var expr =>
      exact .bind (eval_wakeful awake) fun _ _ awake => .updateThen (.pure (.more awake lineal))
  | change var amount =>
      exact .bind (eval_wakeful awake) fun _ _ awake => .updateThen (.pure (.more awake lineal))
  | op opcode args =>
      refine .bind (evaluative_wakeful.evalNamed args start turn awake) fun _ _ awake => ?_
      exact .pure (.more awake lineal)
  | call signature args =>
      have closed : Evaluative foreign (fun _ => True) fun _ act => Wakeful act := evaluative_wakeful
      have values : Wakeful (args.mapM (eval foreign call.routine call.params)) :=
        closed.mapM closed.eval args
      refine .bind (values start turn awake) fun _ _ awake => ?_
      refine .bind (resolve_wakeful awake) fun procedure _ awake => ?_
      cases procedure with
      | none => exact leave_fits (fun _ => lineal) awake
      | some routine => exact .pure (.more awake (.made passed rfl lineal))
  | yield =>
      refine .bind givesUp_fits fun counts later ⟨same, allowed⟩ => ?_
      have awake : start.StaysAwake later := by
        unfold Turn.StaysAwake Turn.Awake
        rwa [same]
      cases counts with
      | false => exact .pure (.more awake lineal)
      | true =>
          cases isDone : turn.thread.isDone with
          | true => exact .pure (.ended (same ▸ isDone))
          | false => exact .pure (.paused awake lineal ⟨rfl, allowed rfl, rfl⟩)
  | times count body =>
      refine .bind (eval_wakeful awake) fun _ _ awake => ?_
      dsimp only
      split
      · exact .pure (.more awake (lineal.goOn rfl))
      · exact .pure (.more awake lineal)
  | forever body => exact .pure (.more awake (lineal.goOn rfl))
  | whileTrue cond body =>
      refine .bind (eval_wakeful awake) fun _ _ awake => ?_
      dsimp only
      split
      · exact .pure (.more awake (lineal.goOn rfl))
      · exact .pure (.more awake lineal)
  | untilTrue cond body =>
      refine .bind (eval_wakeful awake) fun _ _ awake => ?_
      dsimp only
      split
      · exact .pure (.more awake lineal)
      · exact .pure (.more awake (lineal.goOn rfl))
  | ifElse cond yes no =>
      refine .bind (eval_wakeful awake) fun _ _ awake => ?_
      exact .pure (.more awake (lineal.goOn rfl))
  | ret result =>
      cases result with
      | none => exact leave_fits lineal.leave awake
      | some expr => exact .bind (eval_wakeful awake) fun _ _ awake => leave_fits lineal.leave awake

theorem stepCall_fits (lineal : Lineal (call :: callers)) (awake : start.StaysAwake turn) :
    Ensures (Response.Fits start False (Pauses foreign ⟨none, call :: callers⟩ turn))
      (stepCall foreign call callers) turn := by
  unfold stepCall
  split
  next => exact leave_fits lineal.leave awake
  next frame outer isFrames =>
    split
    next instr isInstr =>
      have advanced : Lineal ({ call with
          frames := { frame with index := frame.index + 1 } :: outer } :: callers) :=
        lineal.goOn rfl
      intro response after ran
      refine (execute_fits advanced isInstr awake response after ran).mono id ?_
      rintro ⟨rfl, allowed, going⟩
      refine .yield ?_ ?_ going
      · simp [instr?, isFrames, isInstr]
      · rwa [lineal.inWarpMode_iff, Bool.not_eq_true]
    next =>
      refine .bind (again_wakeful awake) fun rule _ awake => ?_
      cases rule with
      | none => exact .pure (.more awake (lineal.goOn rfl))
      | some rule => exact .pure (.more awake (lineal.goOn rfl))

/-- A block that is finished may have given up the tick. -/
theorem stepPending_fits {op : PendingOp} {calls : List Activation} (lineal : Lineal calls) :
    Ensures (Response.Fits start True (Pauses foreign ⟨some op, calls⟩ turn))
      (stepPending foreign op calls) turn := by
  unfold stepPending
  refine .bind .ran fun completion later ran => .getThen ?_
  split
  next isDone => exact .pure (.ended isDone)
  next going =>
    cases finished : completion.finished with
    | false =>
        exact .setThen (.pure (.paused (fun _ => nofun) lineal (.rerun ran finished (by simpa using going))))
    | true =>
        rw [if_neg (by decide)]
        split
        next gaveUp => exact .pure (.passed gaveUp lineal trivial)
        next awake => exact .pure (.more (fun _ => awake) lineal)

theorem resume_fits {sequence : Sequence} (lineal : Lineal sequence.calls)
    (awake : start.StaysAwake turn) :
    Ensures (Response.Fits start (sequence.pending.isSome = true) (sequence.Pauses foreign turn))
      (sequence.resume foreign) turn := by
  obtain ⟨pending, calls⟩ := sequence
  intro response after ran
  cases pending with
  | some op => exact (stepPending_fits lineal response after ran).mono (fun _ => rfl) id
  | none =>
      cases calls with
      | nil => cases lineal
      | cons call callers =>
          exact (stepCall_fits lineal awake response after ran).mono False.elim id

/-- What a step comes to on a thread that has not given up the tick. -/
theorem step_fits {sequence : Sequence} (lineal : Lineal sequence.calls) (awake : start.StaysAwake turn) :
    Ensures (Step.Fits start (sequence.Pauses foreign turn)) (sequence.step foreign) turn :=
  .bind (resume_fits lineal awake) fun _ _ fits => fits.heed

/-- Where code pauses, it is suspended, and its thread is not done. -/
theorem Pauses.suspends {sequence : Sequence} (lineal : Lineal sequence.calls) (awake : turn.Awake)
    (pauses : sequence.Pauses foreign turn) :
    ∃ later last, (sequence.step foreign).run.run turn = (.ok (.rest (.suspended later)), last) ∧
      last.thread.isDone = false := by
  cases pauses with
  | @yield call callers _ stands allowed going =>
      obtain ⟨frame, isFrame, isInstr⟩ : ∃ frame, call.frames.head? = some frame ∧
          call.routine.instr? frame.body frame.index = some .yield := by
        simpa [instr?, Option.bind_eq_some_iff] using stands
      obtain ⟨outer, isFrames⟩ := List.head?_eq_some_iff.mp isFrame
      have counts : ∃ last, (givesUp call.warp).run.run turn = (.ok true, last) ∧
          last.thread = turn.thread := by
        rw [lineal.inWarpMode_iff] at allowed
        cases isWarp : call.warp with
        | false => exact ⟨turn, run_givesUp_outside turn, rfl⟩
        | true =>
            have overdue := allowed.resolve_left (not_not.mpr isWarp)
            exact ⟨turn.readClock, by rw [run_givesUp_inWarp, overdue], rfl⟩
      obtain ⟨last, ran, same⟩ := counts
      refine ⟨⟨none, { call with frames := { frame with index := frame.index + 1 } :: outer } ::
        callers⟩, last, ?_, same ▸ going⟩
      rw [step_execute isFrames isInstr, execute, bind_assoc, Act.run_bind ran]
      change (heed (.yield _)).run.run last = _
      rw [run_heed_yield, same, going, if_neg Bool.false_ne_true, if_neg awake]
  | @rerun op calls _ after completion ran again going =>
      refine ⟨⟨some { op with state := completion.state }, calls⟩,
        { after with thread := after.thread.withStatus .running }, ?_, rfl⟩
      rw [step_of_runBlock _ ran, going, again]
      rfl

end

/-! ## Runs -/

section

variable {foreign : Foreign} {start moment : Sequence × Turn}

/-- At each moment of a turn, the calls have made each other, and the thread has not given up the tick
if it had not done so before the turn. -/
theorem Visits.lineal (visits : Visits foreign start moment) (lineal : Lineal start.1.calls) :
    Lineal moment.1.calls ∧ start.2.StaysAwake moment.2 := by
  induction visits with
  | refl => exact ⟨lineal, id⟩
  | tail _ steps ih =>
      have fits := step_fits ih.1 ih.2 _ _ steps
      exact ⟨fits.more _ rfl, fits.awake⟩

/-- What code comes to in its turn, and that it gives up the tick only where it pauses. -/
theorem RestsWith.fits {rest : Rest} {last : Turn} (rests : RestsWith foreign start (.ok rest) last)
    (lineal : Lineal start.1.calls) :
    Step.Fits start.2 (∃ moment, Visits foreign start moment ∧ moment.1.Pauses foreign moment.2)
      (.rest rest) last := by
  obtain ⟨moment, visits, rests⟩ := rests
  obtain ⟨lineal, awake⟩ := visits.lineal lineal
  exact (step_fits lineal awake _ _ rests).mono fun pauses => ⟨moment, visits, pauses⟩

/-- On a thread that has not given up the tick, code is suspended exactly if it comes to a place where
it pauses. -/
theorem suspended_iff_pauses (lineal : Lineal start.1.calls) (awake : start.2.Awake) :
    (∃ later last, RestsWith foreign start (.ok (.suspended later)) last ∧
      last.thread.isDone = false) ↔
    ∃ moment, Visits foreign start moment ∧ moment.1.Pauses foreign moment.2 := by
  constructor
  · rintro ⟨later, last, rests, -⟩
    exact ((rests.fits lineal).suspended later rfl).2
  · rintro ⟨moment, visits, pauses⟩
    obtain ⟨linealThere, awakeThere⟩ := visits.lineal lineal
    obtain ⟨later, last, rests, going⟩ := pauses.suspends linealThere (awakeThere awake)
    exact ⟨later, last, ⟨moment, visits, rests⟩, going⟩

/-- The calls of suspended code have made each other. -/
theorem lineal_of_run? {fuel : Nat} {sequence later : Sequence} {turn after : Turn}
    (lineal : Lineal sequence.calls)
    (done : sequence.run? foreign fuel turn = some (.ok (.suspended later), after)) :
    Lineal later.calls := by
  exact (((RestsWith.of_run? done).fits lineal).suspended later rfl).1

/-- Where code breaks off on a thread that had not given up the tick, the thread is done; or a block that
the code waits for has given up the tick, and the code is resumed at once; or the thread is running, and
the code pauses. -/
theorem Visits.breaksOff {later : Sequence} {turn : Turn} (visits : Visits foreign start moment)
    (lineal : Lineal start.1.calls) (awake : start.2.Awake)
    (answered : (moment.1.resume foreign).run.run moment.2 = (.ok (.yield later), turn)) :
    turn.thread.isDone = true ∨
    (turn.thread.status = .yielded ∧ moment.1.pending.isSome = true ∧
      Visits foreign start (later, { turn with thread := turn.thread.wake })) ∨
    (turn.thread.status = .running ∧ moment.1.Pauses foreign moment.2 ∧
      RestsWith foreign start (.ok (.suspended later)) turn) := by
  obtain ⟨linealThere, staysAwake⟩ := visits.lineal lineal
  have fits := resume_fits linealThere staysAwake _ _ answered
  have stepped : (moment.1.step foreign).run.run moment.2 = (heed (.yield later)).run.run turn :=
    Act.run_bind answered
  rw [run_heed_yield] at stepped
  cases isStatus : turn.thread.status with
  | done =>
      refine .inl ?_
      rw [Thread.isDone, isStatus]
      rfl
  | yielded =>
      rw [if_neg (by simp [Thread.isDone, isStatus]), if_pos isStatus] at stepped
      refine .inr (.inl ⟨rfl, ?_, .tail visits stepped⟩)
      cases fits with
      | ended isDone => simp [Thread.isDone, isStatus] at isDone
      | passed _ _ waiting => exact waiting
      | paused stays => exact (stays awake isStatus).elim
  | running =>
      rw [if_neg (by simp [Thread.isDone, isStatus]), if_neg (by simp [isStatus])] at stepped
      refine .inr (.inr ⟨rfl, ?_, moment, visits, stepped⟩)
      cases fits with
      | ended isDone => simp [Thread.isDone, isStatus] at isDone
      | passed gaveUp => simp [isStatus] at gaveUp
      | paused _ _ pausing => exact pausing

/-- When a block is finished, its code goes on at once, even if the block has given up the tick. -/
theorem Visits.finish {op : PendingOp} {calls : List Activation} {turn later : Turn}
    {completion : Completion} (visits : Visits foreign start (⟨some op, calls⟩, turn))
    (ran : (runBlock foreign op.opcode op.args op.state).run.run turn = (.ok completion, later))
    (finished : completion.finished = true) (going : later.thread.isDone = false) :
    Visits foreign start (⟨none, calls⟩, { later with thread := later.thread.wake }) := by
  have steps : (step foreign ⟨some op, calls⟩).run.run turn =
      (.ok (.more ⟨none, calls⟩), { later with thread := later.thread.wake }) := by
    rw [step_of_runBlock _ ran, going, finished]
    rfl
  exact .tail visits steps

end

end Sequence

end StepCode
