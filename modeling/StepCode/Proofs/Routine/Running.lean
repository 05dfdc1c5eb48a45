import Mathlib.Logic.Relation
import StepCode.Routine.Run

/-!
# Running compiled code

A run takes one step after the other until the code comes to rest.  Where it does, and what it visits
on the way, does not depend on how many steps a run is allowed; what is true of a run is shown along
the moments it visits.
-/

namespace StepCode

namespace Act

variable {α β : Type} {act : Act α} {next : α → Act β} {turn after : Turn} {value : α}

theorem run_bind (ran : act.run.run turn = (.ok value, after)) :
    (act >>= next).run.run turn = (next value).run.run after := by
  rw [ExceptT.run_bind, StateT.run_bind, ran]
  rfl

theorem run_bind_error {error : RunError} (ran : act.run.run turn = (.error error, after)) :
    (act >>= next).run.run turn = (.error error, after) := by
  rw [ExceptT.run_bind, StateT.run_bind, ran]
  rfl

theorem run_get_bind {next : Turn → Act β} :
    (get >>= next).run.run turn = (next turn).run.run turn := rfl

end Act

namespace Sequence

variable {foreign : Foreign} {start moment : Sequence × Turn} {outcome : Except RunError Rest}
  {last : Turn}

/-! ## Steps -/

/-- Outside warp mode every yield counts. -/
theorem run_givesUp_outside (turn : Turn) : (givesUp false).run.run turn = (.ok true, turn) := rfl

theorem run_givesUp_inWarp (turn : Turn) :
    (givesUp true).run.run turn = (.ok turn.host.readClock.isOverdue, turn.readClock) := rfl

/-- Where code breaks off, the status of its thread says what becomes of it. -/
theorem run_heed_yield (sequence : Sequence) (turn : Turn) :
    (heed (.yield sequence)).run.run turn =
      if turn.thread.isDone = true then (.ok (.rest .retired), turn)
      else if turn.thread.status = .yielded then
        (.ok (.more sequence), { turn with thread := turn.thread.wake })
      else (.ok (.rest (.suspended sequence)), turn) := by
  rw [heed, Act.run_get_bind]
  split
  · rfl
  · split
    next gaveUp =>
      rw [Thread.wake, if_pos gaveUp]
      rfl
    · rfl

/-- When a call has ended, its caller goes on unless the thread was ended. -/
theorem run_leave_heed (value : Value) (caller : Activation) (callers : List Activation) (turn : Turn) :
    (leave value (caller :: callers) >>= heed).run.run turn =
      if turn.thread.isDone = true then (.ok (.rest .retired), turn)
      else (.ok (.more ⟨none, caller :: callers⟩), turn) := by
  unfold leave
  rw [bind_assoc, Act.run_get_bind]
  by_cases isDone : turn.thread.isDone = true
  · rw [if_pos isDone, if_pos isDone, pure_bind, run_heed_yield, if_pos isDone]
  · rw [if_neg isDone, if_neg isDone]
    rfl

/-- If a block leaves its thread going, it is finished, and the code goes on behind it in the same tick,
whether the block has given that up or not; or it has to run again, and the code is suspended. -/
theorem step_of_runBlock (op : PendingOp) {calls : List Activation} {turn after : Turn}
    {completion : Completion}
    (ran : (runBlock foreign op.opcode op.args op.state).run.run turn = (.ok completion, after)) :
    (step foreign ⟨some op, calls⟩).run.run turn =
      if after.thread.isDone = true then (.ok (.rest .retired), after)
      else if completion.finished = true then
        (.ok (.more ⟨none, calls⟩), { after with thread := after.thread.wake })
      else (.ok (.rest (.suspended ⟨some { op with state := completion.state }, calls⟩)),
        { after with thread := after.thread.withStatus .running }) := by
  change (stepPending foreign op calls >>= heed).run.run turn = _
  rw [stepPending, bind_assoc, Act.run_bind ran, bind_assoc, Act.run_get_bind]
  by_cases isDone : after.thread.isDone = true
  · rw [if_pos isDone, if_pos isDone, pure_bind, run_heed_yield, if_pos isDone]
  · rw [if_neg isDone, if_neg isDone]
    cases completion.finished with
    | false => rfl
    | true =>
        -- The answer breaks off if the block has given up the tick; the turn resumes the code then.
        rw [if_neg (by decide), if_pos rfl, Thread.wake]
        by_cases gaveUp : after.thread.status = .yielded
        · rw [if_pos gaveUp, pure_bind, run_heed_yield, if_neg isDone, if_pos gaveUp, Thread.wake]
        · rw [if_neg gaveUp, if_neg gaveUp]
          rfl

theorem step_of_runBlock_error (op : PendingOp) {calls : List Activation} {turn after : Turn}
    {error : RunError}
    (ran : (runBlock foreign op.opcode op.args op.state).run.run turn = (.error error, after)) :
    (step foreign ⟨some op, calls⟩).run.run turn = (.error error, after) := by
  change (stepPending foreign op calls >>= heed).run.run turn = _
  rw [stepPending, bind_assoc, Act.run_bind_error ran]

section

variable {call : Activation} {frame : BodyFrame} {outer : List BodyFrame} {callers : List Activation}

/-- The innermost call runs its next statement. -/
theorem resume_execute {instr : Instr} (isFrames : call.frames = frame :: outer)
    (isInstr : call.routine.instr? frame.body frame.index = some instr) :
    resume foreign ⟨none, call :: callers⟩ =
      execute foreign { call with frames := { frame with index := frame.index + 1 } :: outer }
        callers frame.body frame.index instr := by
  simp only [resume, stepCall, isFrames, isInstr]

theorem step_execute {instr : Instr} (isFrames : call.frames = frame :: outer)
    (isInstr : call.routine.instr? frame.body frame.index = some instr) :
    step foreign ⟨none, call :: callers⟩ =
      execute foreign { call with frames := { frame with index := frame.index + 1 } :: outer }
        callers frame.body frame.index instr >>= heed := by
  rw [step, resume_execute isFrames isInstr]

/-- The innermost call has come to the end of a body: it is run again or left. -/
theorem resume_end (isFrames : call.frames = frame :: outer)
    (atEnd : call.routine.instr? frame.body frame.index = none) :
    resume foreign ⟨none, call :: callers⟩ = again foreign call frame.rule >>= fun rule =>
      pure (.more ⟨none, { call with
        frames := rule.elim outer fun rule => ⟨frame.body, 0, rule⟩ :: outer } :: callers⟩) := by
  simp only [resume, stepCall, isFrames, atEnd]
  exact bind_congr fun rule => by cases rule <;> rfl

end

/-- A step with which the code does not come to rest. -/
def StepsTo (foreign : Foreign) (before after : Sequence × Turn) : Prop :=
  (before.1.step foreign).run.run before.2 = (.ok (.more after.1), after.2)

/-- The moments that the code comes to in its turn. -/
def Visits (foreign : Foreign) : Sequence × Turn → Sequence × Turn → Prop :=
  Relation.ReflTransGen (StepsTo foreign)

/-- In its turn the code comes to rest so. -/
def RestsWith (foreign : Foreign) (start : Sequence × Turn) (outcome : Except RunError Rest)
    (last : Turn) : Prop :=
  ∃ moment, Visits foreign start moment ∧
    (moment.1.step foreign).run.run moment.2 = (outcome.map Step.rest, last)

/-! ## Coming to rest -/

theorem StepsTo.restsWith_iff {next : Sequence × Turn} (steps : StepsTo foreign start next) :
    RestsWith foreign start outcome last ↔ RestsWith foreign next outcome last := by
  constructor
  · rintro ⟨moment, visits, rests⟩
    rcases visits.cases_head with rfl | ⟨other, first, visits⟩
    · rw [StepsTo] at steps
      rw [steps] at rests
      cases outcome <;> cases rests
    · have same : other = next := by
        rw [StepsTo] at steps first
        rw [steps] at first
        obtain ⟨isSequence, isTurn⟩ := Prod.mk.inj first
        exact Prod.ext (Step.more.inj (Except.ok.inj isSequence)).symm isTurn.symm
      exact ⟨moment, same ▸ visits, rests⟩
  · rintro ⟨moment, visits, rests⟩
    exact ⟨moment, .head steps visits, rests⟩

/-- Code that rests with its next step rests in one way only. -/
theorem restsWith_iff_of_rests {other : Except RunError Rest} {after : Turn}
    (rests : (start.1.step foreign).run.run start.2 = (other.map Step.rest, after)) :
    RestsWith foreign start outcome last ↔ outcome = other ∧ last = after := by
  constructor
  · rintro ⟨moment, visits, ends⟩
    rcases visits.cases_head with rfl | ⟨next, first, -⟩
    · obtain ⟨same, rfl⟩ := Prod.mk.inj (ends.symm.trans rests)
      refine ⟨?_, rfl⟩
      cases outcome with
      | error => cases other <;> cases same; rfl
      | ok => cases other <;> cases same; rfl
    · rw [StepsTo, rests] at first
      cases other <;> cases first
  · rintro ⟨rfl, rfl⟩
    exact ⟨start, .refl, rests⟩

/-! ## Runs -/

/-- A run that comes to an end is the only way in which the code comes to rest. -/
theorem restsWith_iff_of_run? {fuel : Nat} {sequence : Sequence} {turn after : Turn}
    {other : Except RunError Rest} (done : sequence.run? foreign fuel turn = some (other, after)) :
    RestsWith foreign (sequence, turn) outcome last ↔ outcome = other ∧ last = after := by
  induction fuel generalizing sequence turn with
  | zero => cases done
  | succ fuel ih =>
      unfold run? at done
      split at done
      next error middle stepped =>
        obtain ⟨rfl, rfl⟩ := Prod.mk.inj (Option.some.inj done)
        exact restsWith_iff_of_rests stepped
      next rest middle stepped =>
        obtain ⟨rfl, rfl⟩ := Prod.mk.inj (Option.some.inj done)
        exact restsWith_iff_of_rests stepped
      next later middle stepped =>
        have steps : StepsTo foreign (sequence, turn) (later, middle) := stepped
        exact steps.restsWith_iff.trans (ih done)

theorem RestsWith.of_run? {fuel : Nat} {sequence : Sequence} {turn : Turn}
    (done : sequence.run? foreign fuel turn = some (outcome, last)) :
    RestsWith foreign (sequence, turn) outcome last :=
  (restsWith_iff_of_run? done).mpr ⟨rfl, rfl⟩

variable {sequence next : Sequence} {turn after : Turn}

/-- What a run comes to does not depend on the steps that it might still take. -/
theorem run?_of_le {fuel more : Nat} {result : Except RunError Rest × Turn} (enough : fuel ≤ more)
    (ran : sequence.run? foreign fuel turn = some result) :
    sequence.run? foreign more turn = some result := by
  induction fuel generalizing sequence turn more with
  | zero => cases ran
  | succ fuel ih =>
      obtain ⟨more, rfl⟩ := Nat.exists_eq_add_of_le' (Nat.le_trans (Nat.le_add_left 1 fuel) enough)
      simp only [run?] at ran ⊢
      split at ran
      next error middle isStep => exact ran
      next rest middle isStep => exact ran
      next next middle isStep => exact ih (Nat.le_of_succ_le_succ enough) ran

theorem run?_of_more {fuel : Nat} {result : Except RunError Rest × Turn}
    (step : (sequence.step foreign).run.run turn = (.ok (.more next), after))
    (ran : next.run? foreign fuel after = some result) :
    sequence.run? foreign (fuel + 1) turn = some result := by
  simp only [run?, step, ran]

theorem run?_of_rests (step : (sequence.step foreign).run.run turn = (outcome.map Step.rest, after)) :
    sequence.run? foreign 1 turn = some (outcome, after) := by
  cases outcome <;> simp only [run?, step, Except.map]

end Sequence

end StepCode
