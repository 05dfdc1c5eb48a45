import StepCode.Proofs.Routine.Faithful
import StepCode.Proofs.Routine.Suspending

/-!
# Code that is never suspended

A routine whose statements are all straight has nothing to come back to: it writes variables, takes
branches and returns.  Every step leaves less of it to run, so it ends or fails in one go, whatever the
reporters that it asks do to the thread.
-/

namespace StepCode

/-! ## What is left to run -/

/-- No statement of a single-shot routine may suspend it. -/
theorem Routine.maySuspend_eq_false {routine : Routine} (single : routine.kind = .singleShot)
    {id index : Nat} {instr : Instr} (isInstr : routine.instr? id index = some instr) :
    instr.maySuspend = false := by
  have none : routine.bodies.any (·.any Instr.maySuspend) = false := by
    by_contra suspends
    rw [Bool.not_eq_false] at suspends
    simp [kind, suspends] at single
  simp only [List.any_eq_false, Bool.not_eq_true] at none
  obtain ⟨body, found, here⟩ := exists_body_of_instr? isInstr
  exact none body (List.mem_of_getElem? found) instr (List.mem_of_getElem? here)

/-- The call stands in bodies that are run once, with statements of the size `left` to come. -/
inductive Straight (routine : Routine) : List BodyFrame → (left : Nat) → Prop
  | nowhere : Straight routine [] 0
  | inside {id index : Nat} {frames : List BodyFrame} {stmts : List Stmt} {left : Nat}
      (holds : Routine.Holds routine.body stmts ((routine.body id).drop index))
      (outside : Straight routine frames left) :
      Straight routine (⟨id, index, .once⟩ :: frames) (sizeOf stmts + left)

theorem Straight.enter (routine : Routine) :
    Straight routine [⟨Routine.entry, 0, .once⟩] (sizeOf routine.script.body) :=
  .inside routine.holds .nowhere

/-- The code has less to run of the call, or the call is over: the code has ended with it, goes on with
the callers, or breaks off in them since the thread was ended. -/
inductive GetsOn (scope : Scope) (callers : List Activation) (left : Nat) : Response → Turn → Prop
  | onward {frames : List BodyFrame} {fewer : Nat} {after : Turn}
      (straight : Straight scope.routine frames fewer) (less : fewer < left) :
      GetsOn scope callers left (.more (scope.at frames callers)) after
  | ended {value : Value} {after : Turn} (outermost : callers = []) :
      GetsOn scope callers left (.done value) after
  | returned {after : Turn} (called : callers ≠ []) (going : after.thread.isDone = false) :
      GetsOn scope callers left (.more ⟨none, callers⟩) after
  | retired {after : Turn} (called : callers ≠ []) (isDone : after.thread.isDone = true) :
      GetsOn scope callers left (.yield ⟨none, callers⟩) after

section

variable {foreign : Foreign} {scope : Scope} {id index : Nat} {frames : List BodyFrame}
  {callers : List Activation} {left : Nat} {turn : Turn}

theorem GetsOn.leave {value : Value} :
    Ensures (GetsOn scope callers left) (Sequence.leave value callers) turn := by
  cases callers with
  | nil => exact .pure (.ended rfl)
  | cons caller callers =>
      refine .getThen ?_
      cases isDone : turn.thread.isDone with
      | true => exact .pure (.retired (List.cons_ne_nil _ _) isDone)
      | false => exact .pure (.returned (List.cons_ne_nil _ _) isDone)

/-- A body that is over is left for good. -/
theorem GetsOn.resume_end (atEnd : (scope.routine.body id).drop index = [])
    (straight : Straight scope.routine frames left) :
    Ensures (GetsOn scope callers (1 + left))
      ((scope.at (⟨id, index, .once⟩ :: frames) callers).resume foreign) turn := by
  have isNone : scope.routine.instr? id index = none := by
    rw [Routine.instr?, ← List.head?_drop, atEnd, List.head?_nil]
  rw [Scope.at, Sequence.resume_end rfl isNone]
  exact .pure (.onward straight (by omega))

/-- A statement that cannot suspend the call leaves less to run. -/
theorem GetsOn.resume_instr {stmt : Stmt} {rest : List Stmt} {instr : Instr}
    (isInstr : scope.routine.instr? id index = some instr) (passes : instr.maySuspend = false)
    (held : Routine.HoldsStmt scope.routine.body stmt instr)
    (others : Routine.Holds scope.routine.body rest ((scope.routine.body id).drop (index + 1)))
    (straight : Straight scope.routine frames left) :
    Ensures (GetsOn scope callers (sizeOf (stmt :: rest) + left))
      ((scope.at (⟨id, index, .once⟩ :: frames) callers).resume foreign) turn := by
  have behind : Straight scope.routine (⟨id, index + 1, .once⟩ :: frames) (sizeOf rest + left) :=
    .inside others straight
  rw [Scope.at, Sequence.resume_execute rfl isInstr]
  cases stmt with
  | set var value =>
      obtain rfl := held
      exact .bind .ran fun _ _ _ => .updateThen (.pure (.onward behind (by simp)))
  | change var amount =>
      obtain rfl := held
      exact .bind .ran fun _ _ _ => .updateThen (.pure (.onward behind (by simp)))
  | ifElse cond yes no =>
      obtain ⟨yesId, noId, rfl, holdsYes, holdsNo⟩ := held
      refine .bind .ran fun value _ _ => .pure ?_
      cases value.toBool with
      | true => exact .onward (.inside holdsYes behind) (by simp; omega)
      | false => exact .onward (.inside holdsNo behind) (by simp; omega)
  | ret value =>
      obtain rfl := held
      cases value with
      | none => exact .leave
      | some expr => exact .bind .ran fun _ _ _ => .leave
  | op | call | yield =>
      obtain rfl := held
      cases passes
  | times | forever | whileTrue | untilTrue =>
      obtain ⟨_, rfl, -⟩ := held
      cases passes

/-- Single-shot code that does not fail gets on. -/
theorem Straight.resume_getsOn (single : scope.routine.kind = .singleShot)
    (straight : Straight scope.routine frames left) :
    Ensures (GetsOn scope callers left) ((scope.at frames callers).resume foreign) turn := by
  cases straight with
  | nowhere => exact .leave
  | @inside id index frames stmts left holds outside =>
      cases stmts with
      | nil =>
          rw [Routine.Holds] at holds
          exact .resume_end holds outside
      | cons stmt rest =>
          obtain ⟨instr, others, isDrop, held, holdsRest⟩ := holds
          have isInstr : scope.routine.instr? id index = some instr := by
            rw [Routine.instr?, ← List.head?_drop, isDrop, List.head?_cons]
          have isRest : (scope.routine.body id).drop (index + 1) = others := by
            rw [← List.tail_drop, isDrop, List.tail_cons]
          exact .resume_instr isInstr (Routine.maySuspend_eq_false single isInstr) held
            (isRest ▸ holdsRest) outside

/-! ## Whole runs -/

/-- What a run that begins with a call comes to, if the call is over before the fuel: an end, an error,
a thread that was ended under the callers, or what the callers come to. -/
inductive Finishes (foreign : Foreign) (callers : List Activation) (fuel : Nat) :
    Option (Except RunError Rest × Turn) → Prop
  | ended {value : Value} {last : Turn} (outermost : callers = []) :
      Finishes foreign callers fuel (some (.ok (.ended value), last))
  | failed {error : RunError} {last : Turn} : Finishes foreign callers fuel (some (.error error, last))
  | retired {last : Turn} (called : callers ≠ []) (isDone : last.thread.isDone = true) :
      Finishes foreign callers fuel (some (.ok .retired, last))
  | returned {rest : Nat} {last : Turn} (called : callers ≠ [])
      (going : last.thread.isDone = false) (enough : fuel ≤ rest) :
      Finishes foreign callers fuel (Sequence.run? foreign rest ⟨none, callers⟩ last)

variable (scope) in
/-- A call takes no more steps than there is left to run, and one to leave it. -/
theorem Straight.finishes (single : scope.routine.kind = .singleShot)
    (straight : Straight scope.routine frames left) {fuel spare : Nat} (enough : left + 1 + spare ≤ fuel) :
    Finishes foreign callers spare ((scope.at frames callers).run? foreign fuel turn) := by
  induction fuel generalizing frames left turn with
  | zero => omega
  | succ fuel ih =>
      have getsOn : Ensures (GetsOn scope callers left)
          ((scope.at frames callers).resume foreign) turn := straight.resume_getsOn single
      rcases answered : ((scope.at frames callers).resume foreign).run.run turn with ⟨outcome, middle⟩
      cases outcome with
      | error error =>
          have stepped : ((scope.at frames callers).step foreign).run.run turn = (.error error, middle) :=
            Act.run_bind_error answered
          rw [Sequence.run?, stepped]
          exact .failed
      | ok response =>
          have stepped : ((scope.at frames callers).step foreign).run.run turn =
              (Sequence.heed response).run.run middle := Act.run_bind answered
          rw [Sequence.run?, stepped]
          cases getsOn response middle answered with
          | onward later less => exact ih later (by omega)
          | ended outermost => exact .ended outermost
          | returned called going => exact .returned called going (by omega)
          | retired called isDone =>
              rw [Sequence.run_heed_yield, if_pos isDone]
              exact .retired called isDone

variable (scope) in
/-- Code that nothing has called stands in its own statements, and does not break off. -/
theorem Straight.step_stays (single : scope.routine.kind = .singleShot)
    (straight : Straight scope.routine frames left) :
    Ensures (fun step _ => ∀ later, step = .more later → ∃ frames left, later = scope.at frames [] ∧
        Straight scope.routine frames left)
      ((scope.at frames []).step foreign) turn := by
  refine .bind (straight.resume_getsOn single) fun response middle getsOn => ?_
  cases getsOn with
  | onward straight _ => exact .pure fun later same => ⟨_, _, (Step.more.inj same).symm, straight⟩
  | ended _ => exact .pure nofun
  | returned called _ => exact (called rfl).elim
  | retired called _ => exact (called rfl).elim

variable (scope) in
/-- At every moment of its turn it does so. -/
theorem Straight.visits (single : scope.routine.kind = .singleShot)
    (straight : Straight scope.routine frames left) {moment : Sequence × Turn}
    (visits : Sequence.Visits foreign (scope.at frames [], turn) moment) :
    ∃ frames left, moment.1 = scope.at frames [] ∧ Straight scope.routine frames left := by
  induction visits with
  | refl => exact ⟨frames, left, rfl, straight⟩
  | tail _ steps ih =>
      obtain ⟨frames, left, isHere, straight⟩ := ih
      rw [Sequence.StepsTo, isHere] at steps
      exact straight.step_stays scope single _ _ steps _ rfl

end

/-- The code is resumed until it ends or fails: how many times, and what it comes to. -/
inductive Sequence.Completes (foreign : Foreign) :
    (rounds : Nat) → Sequence × Turn → Except RunError Value → Turn → Prop
  | ended {start : Sequence × Turn} {value : Value} {last : Turn}
      (rests : RestsWith foreign start (.ok (.ended value)) last) :
      Completes foreign 1 start (.ok value) last
  | failed {start : Sequence × Turn} {error : RunError} {last : Turn}
      (rests : RestsWith foreign start (.error error) last) :
      Completes foreign 1 start (.error error) last
  | again {rounds : Nat} {start : Sequence × Turn} {later : Sequence} {middle last : Turn}
      {outcome : Except RunError Value}
      (rests : RestsWith foreign start (.ok (.suspended later)) middle)
      (rest : Completes foreign rounds (later, middle) outcome last) :
      Completes foreign (rounds + 1) start outcome last

/-- The first resumption has ended with a value or an error, and there is no second one. -/
structure Sequence.CompletesAtOnce (foreign : Foreign) (most : Nat) (start : Sequence × Turn) : Prop where
  first : ∃ result last, start.1.run? foreign most start.2 = some (result.map Rest.ended, last) ∧
    Completes foreign 1 start result last
  only : ∀ rounds result last, Completes foreign rounds start result last → rounds = 1

theorem Sequence.completesAtOnce_of_run? {foreign : Foreign} {most : Nat} {sequence : Sequence}
    {turn last : Turn} (result : Except RunError Value)
    (ran : sequence.run? foreign most turn = some (result.map Rest.ended, last)) :
    CompletesAtOnce foreign most (sequence, turn) where
  first := by
    have rests := RestsWith.of_run? ran
    cases result with
    | ok value => exact ⟨.ok value, last, ran, .ended rests⟩
    | error error => exact ⟨.error error, last, ran, .failed rests⟩
  only rounds other after completes := by
    cases completes with
    | ended => rfl
    | failed => rfl
    | again rests _ =>
        obtain ⟨suspended, -⟩ := (restsWith_iff_of_run? ran).mp rests
        cases result <;> cases suspended

theorem Sequence.CompletesAtOnce.of_finishes {foreign : Foreign} {most : Nat} {start : Sequence × Turn}
    (finishes : Finishes foreign [] 0 (start.1.run? foreign most start.2)) :
    CompletesAtOnce foreign most start := by
  generalize ran : start.1.run? foreign most start.2 = run at finishes
  cases finishes with
  | @ended value => exact completesAtOnce_of_run? (.ok value) ran
  | @failed error => exact completesAtOnce_of_run? (.error error) ran
  | retired called _ => exact (called rfl).elim
  | returned called _ _ => exact (called rfl).elim

/-- A routine without a statement that may suspend it ends or fails when it is resumed for the first
time, in any state of the host and the thread and whatever the reporters do that it asks: it never waits
for a block, calls nothing, never answers that it breaks off, and need not be resumed again.  Called by
other code, it is over within the turn of that code. -/
theorem single_shot_routines_run_through {routine : Routine} (single : routine.kind = .singleShot) :
    ∃ most, ∀ (foreign : Foreign) (params : Table Value) (warp : Bool) (turn : Turn),
      Sequence.CompletesAtOnce foreign most (⟨none, [.enter routine params warp]⟩, turn) ∧
      (∀ moment, Sequence.Visits foreign (⟨none, [.enter routine params warp]⟩, turn) moment →
        (∃ frames, moment.1 = ⟨none, [⟨routine, params, warp, frames⟩]⟩) ∧
        ∀ later after, (moment.1.resume foreign).run.run moment.2 ≠ (.ok (.yield later), after)) ∧
      ∀ callers, callers ≠ [] → ∀ fuel, Finishes foreign callers fuel
        (Sequence.run? foreign (most + fuel) ⟨none, .enter routine params warp :: callers⟩ turn) := by
  have straight := Straight.enter routine
  refine ⟨sizeOf routine.script.body + 1, fun foreign params warp turn => ⟨?_, ?_, ?_⟩⟩
  · exact .of_finishes (straight.finishes ⟨routine, params, warp⟩ single (Nat.le_refl _))
  · intro moment visits
    obtain ⟨frames, left, isHere, here⟩ := straight.visits ⟨routine, params, warp⟩ single visits
    refine ⟨⟨frames, isHere⟩, fun later after breaks => ?_⟩
    rw [isHere] at breaks
    cases here.resume_getsOn single _ _ breaks with
    | retired called _ => exact called rfl
  · intro callers called fuel
    exact straight.finishes ⟨routine, params, warp⟩ single (Nat.le_refl _)

/-- Reporters that give up the tick or do whatever a foreign extension does, a branch and a return, but
nothing to wait for. -/
def branchingRoutine : Routine where
  script := ⟨["a"], [.set "x" (.report "control_wait" [("DURATION", .param "a")]),
    .ifElse (.report "radio_heard" []) [.change "x" (.number 1.0)] [], .ret (some (.var "x"))]⟩
  bodies := _
  helpers := .empty
  isNumbered := rfl

theorem branchingRoutine_runs_through : branchingRoutine.kind = .singleShot ∧
    ∃ most, ∀ (foreign : Foreign) (params : Table Value) (turn : Turn),
      Sequence.CompletesAtOnce foreign most (⟨none, [.enter branchingRoutine params false]⟩, turn) := by
  have single : branchingRoutine.kind = .singleShot := rfl
  obtain ⟨most, through⟩ := single_shot_routines_run_through single
  exact ⟨single, most, fun foreign params turn => (through foreign params false turn).1⟩

end StepCode
