import StepCode.Proofs.Host.Restarts

/-!
# Turns that fail

A turn fails where a block or compiled code raises an error, and nowhere else.  One error is recorded
then, under the name of the target and the hat of the script, and the thread is over.  The other threads
of the tick are left alone: what they notice of a turn are the stop requests made in it.
-/

namespace StepCode

namespace Turn

variable {foreign : Foreign} {limits : Limits} {depth : Nat} {turn after : Turn} {error : RunError}

/-! ## The interpreter -/

theorem iterationOver_errors (turn : Turn) : turn.iterationOver.1.host.errors = turn.host.errors := by
  unfold iterationOver
  split
  · dsimp only
    split <;> rfl
  · rfl

theorem leaveFrame_errors (turn : Turn) : turn.leaveFrame.1.host.errors = turn.host.errors := by
  unfold leaveFrame
  split
  · rfl
  · rfl
  · dsimp only
    split
    · exact iterationOver_errors _
    · rfl

theorem leaveProcedure_errors (turn : Turn) : turn.leaveProcedure.host.errors = turn.host.errors := by
  unfold leaveProcedure
  split
  · rfl
  · rfl

/-- What follows a block cannot fail. -/
theorem apply_errors (turn : Turn) (flow : Flow) : (flow.apply turn).1.host.errors = turn.host.errors := by
  cases flow with
  | next => rfl
  | stay => rfl
  | branch substack isLoop =>
      cases substack with
      | some substack => cases isLoop <;> rfl
      | none =>
          cases isLoop with
          | true => exact iterationOver_errors turn
          | false => rfl
  | call definition params warp => rfl
  | leave => exact leaveProcedure_errors turn

/-- The block that is next raises an error, at the moment `last`. -/
def FailsAt (foreign : Foreign) (depth : Nat) (turn : Turn) (error : RunError) (last : Turn) : Prop :=
  ∃ frame callers id, turn.thread.frames = frame :: callers ∧ frame.pc = some id ∧
    (runBlockAt foreign depth id).run.run turn = (.error (.failed error), last)

theorem FailsAt.interpretStep? {last : Turn} (fails : turn.FailsAt foreign depth error last) :
    interpretStep? foreign depth turn = some (last.fail error, false) := by
  obtain ⟨frame, callers, id, frames, next, raised⟩ := fails
  simp only [StepCode.interpretStep?, frames, next, raised]

section

variable {frame : Frame} {callers : List Frame} {id : String} {last : Turn}

theorem failsAt_iff (frames : turn.thread.frames = frame :: callers) (next : frame.pc = some id) :
    turn.FailsAt foreign depth error last ↔
      (runBlockAt foreign depth id).run.run turn = (.error (.failed error), last) := by
  constructor
  · rintro ⟨_, _, _, frames', next', raised⟩
    obtain ⟨rfl, rfl⟩ := List.cons.inj (frames.symm.trans frames')
    obtain rfl := Option.some.inj (next.symm.trans next')
    exact raised
  · exact fun raised => ⟨frame, callers, id, frames, next, raised⟩

theorem not_failsAt_of_atEnd (frames : turn.thread.frames = frame :: callers) (isEnd : frame.pc = none) :
    ¬ turn.FailsAt foreign depth error last := by
  rintro ⟨_, _, _, frames', next, -⟩
  obtain ⟨rfl, rfl⟩ := List.cons.inj (frames.symm.trans frames')
  cases isEnd.symm.trans next

theorem not_failsAt_of_emptied (nothing : turn.thread.frames = []) :
    ¬ turn.FailsAt foreign depth error last := by
  rintro ⟨_, _, _, frames, -⟩
  cases nothing.symm.trans frames

end

theorem FailsAt.error_eq {other : RunError} {last last' : Turn}
    (fails : turn.FailsAt foreign depth error last)
    (again : turn.FailsAt foreign depth other last') : other = error := by
  obtain ⟨frame, callers, id, frames, next, raised⟩ := fails
  obtain ⟨same, -⟩ := Prod.mk.inj (((failsAt_iff frames next).mp again).symm.trans raised)
  exact Fault.failed.inj (Except.error.inj same)

/-- A step of the interpreter fails where its block does, and records no error otherwise. -/
theorem interpretStep?_fails_or {goesOn : Bool} (native : turn.host.Native)
    (stepped : interpretStep? foreign depth turn = some (after, goesOn)) :
    (∃ error last, turn.FailsAt foreign depth error last ∧ turn.Leads last ∧
        after = last.fail error ∧ goesOn = false) ∨
      (∀ error last, ¬ turn.FailsAt foreign depth error last) ∧
        after.host.errors = turn.host.errors := by
  have steps := interpretStep?_steps stepped
  generalize isResult : (after, goesOn) = result at steps
  cases steps with
  | emptied nothing =>
      obtain ⟨rfl, -⟩ := Prod.mk.inj isResult
      exact .inr ⟨fun _ _ => not_failsAt_of_emptied nothing, rfl⟩
  | atEnd frames isEnd =>
      refine .inr ⟨fun _ _ => not_failsAt_of_atEnd frames isEnd, ?_⟩
      rw [← leaveFrame_errors turn, ← isResult]
  | @ran _ _ _ flow middle frames next runs =>
      refine .inr ⟨fun _ _ fails => ?_, ?_⟩
      · cases runs.symm.trans ((failsAt_iff frames next).mp fails)
      · have applied := apply_errors middle flow
        rw [← isResult] at applied
        rw [applied]
        exact (runBlockAt_leads native runs).errors
  | failed frames next raised =>
      obtain ⟨rfl, rfl⟩ := Prod.mk.inj isResult
      exact .inl ⟨_, _, (failsAt_iff frames next).mpr raised, runBlockAt_leads native raised, rfl, rfl⟩

/-- The interpreter, which runs block after block, comes to one that raises an error. -/
inductive Meets (foreign : Foreign) (depth : Nat) : Turn → RunError → Prop
  | here {turn last : Turn} {error : RunError} (running : turn.thread.status = .running)
      (fails : turn.FailsAt foreign depth error last) : Meets foreign depth turn error
  | behind {turn middle : Turn} {error : RunError} (running : turn.thread.status = .running)
      (stepped : interpretStep? foreign depth turn = some (middle, true))
      (later : Meets foreign depth middle error) : Meets foreign depth turn error

/-- The turn ends with `after`, and records there the one error that is raised in it, if any is. -/
inductive Records (turn : Turn) (raised : RunError → Prop) : Turn → Prop
  | none {after : Turn} (quiet : ∀ error, ¬ raised error)
      (errors : after.host.errors = turn.host.errors) : Records turn raised after
  | one {last : Turn} {error : RunError} (isRaised : ∀ other, raised other ↔ other = error)
      (leads : turn.Leads last) : Records turn raised (last.fail error)

theorem Records.imp {raised raised' : RunError → Prop} (same : ∀ error, raised' error ↔ raised error)
    (records : turn.Records raised after) : turn.Records raised' after := by
  cases records with
  | none quiet errors => exact .none (fun error => mt (same error).mp (quiet error)) errors
  | one isRaised leads => exact .one (fun other => (same other).trans (isRaised other)) leads

theorem Records.after_leads {middle : Turn} {raised : RunError → Prop} (leads : turn.Leads middle)
    (records : middle.Records raised after) : turn.Records raised after := by
  cases records with
  | none quiet errors => exact .none quiet (errors.trans leads.errors)
  | one isRaised later => exact .one isRaised (leads.trans later)

theorem not_meets_of_not_running (resting : turn.thread.status ≠ .running) :
    ¬ turn.Meets foreign depth error := by
  intro meets
  cases meets with
  | here running _ => exact resting running
  | behind running _ _ => exact resting running

theorem meets_iff_of_failsAt {last : Turn} (running : turn.thread.status = .running)
    (fails : turn.FailsAt foreign depth error last) (other : RunError) :
    turn.Meets foreign depth other ↔ other = error := by
  constructor
  · intro meets
    cases meets with
    | here _ again => exact fails.error_eq again
    | behind _ stepped _ =>
        rw [fails.interpretStep?] at stepped
        cases stepped
  · rintro rfl
    exact .here running fails

theorem not_meets_of_stepped (stepped : interpretStep? foreign depth turn = some (after, false))
    (quiet : ∀ error last, ¬ turn.FailsAt foreign depth error last) :
    ¬ turn.Meets foreign depth error := by
  intro meets
  cases meets with
  | here _ fails => exact quiet _ _ fails
  | behind _ again _ =>
      rw [stepped] at again
      cases again

theorem meets_iff_of_stepped {middle : Turn} (running : turn.thread.status = .running)
    (stepped : interpretStep? foreign depth turn = some (middle, true)) :
    turn.Meets foreign depth error ↔ middle.Meets foreign depth error := by
  constructor
  · intro meets
    cases meets with
    | here _ fails =>
        rw [fails.interpretStep?] at stepped
        cases stepped
    | behind _ again later =>
        obtain ⟨rfl, -⟩ := Prod.mk.inj (Option.some.inj (stepped.symm.trans again))
        exact later
  · exact .behind running stepped

/-- The interpreter records the error that it comes to, if it comes to one. -/
theorem Interprets.records (native : turn.host.Native)
    (interprets : turn.Interprets foreign depth after) :
    turn.Records (turn.Meets foreign depth) after := by
  induction interprets with
  | rests resting => exact .none (fun _ => not_meets_of_not_running resting) rfl
  | last running stepped =>
      rcases interpretStep?_fails_or native stepped with
        ⟨error, last, fails, leads, rfl, -⟩ | ⟨quiet, errors⟩
      · exact .one (meets_iff_of_failsAt running fails) leads
      · exact .none (fun _ => not_meets_of_stepped stepped quiet) errors
  | @onward turn middle after running stepped rest ih =>
      have same (error : RunError) :
          turn.Meets foreign depth error ↔ middle.Meets foreign depth error :=
        meets_iff_of_stepped running stepped
      rcases interpretStep?_advances native stepped with leads | ⟨-, isDone⟩
      · exact .imp same (.after_leads leads (ih (leads.native native)))
      · -- the script was left, and the interpreter finds that the thread is done
        obtain rfl := rest.eq_of_isDone isDone
        rcases interpretStep?_fails_or native stepped with ⟨_, _, _, _, _, goesOn⟩ | ⟨-, errors⟩
        · cases goesOn
        · have resting : after.thread.status ≠ .running := by
            rw [Thread.isDone_iff.mp isDone]
            decide
          exact .none (fun _ meets => not_meets_of_not_running resting ((same _).mp meets)) errors

/-! ## Whole turns -/

/-- In its turn a thread raises an error: its blocks, its compiled code, or the blocks behind code that
has ended. -/
inductive Raises (foreign : Foreign) (limits : Limits) (turn : Turn) (error : RunError) : Prop
  | interpreted (plain : turn.thread.compiled = none)
      (meets : turn.Meets foreign limits.depth error)
  | compiled {sequence : Sequence} {last : Turn} (isCode : turn.thread.compiled = some sequence)
      (failed : sequence.run? foreign limits.steps turn.detached = some (.error error, last))
  | behind {sequence : Sequence} {value : Value} {last : Turn}
      (isCode : turn.thread.compiled = some sequence)
      (ended : sequence.run? foreign limits.steps turn.detached = some (.ok (.ended value), last))
      (going : last.thread.isDone = false) (meets : last.moveOn.Meets foreign limits.depth error)

theorem raises_iff_of_plain (plain : turn.thread.compiled = none) :
    turn.Raises foreign limits error ↔ turn.Meets foreign limits.depth error := by
  constructor
  · intro raises
    cases raises with
    | interpreted _ meets => exact meets
    | compiled isCode _ => cases plain.symm.trans isCode
    | behind isCode _ _ _ => cases plain.symm.trans isCode
  · exact .interpreted plain

/-- What compiled code came to decides whether an error is raised. -/
theorem raises_iff_of_code {sequence : Sequence} {outcome : Except RunError Rest} {last : Turn}
    (isCode : turn.thread.compiled = some sequence)
    (ran : sequence.run? foreign limits.steps turn.detached = some (outcome, last)) :
    turn.Raises foreign limits error ↔ outcome = .error error ∨
      (∃ value, outcome = .ok (.ended value)) ∧ last.thread.isDone = false ∧
        last.moveOn.Meets foreign limits.depth error := by
  constructor
  · intro raises
    cases raises with
    | interpreted plain _ => cases plain.symm.trans isCode
    | compiled again failed =>
        obtain rfl := Option.some.inj (isCode.symm.trans again)
        obtain ⟨rfl, -⟩ := Prod.mk.inj (Option.some.inj (ran.symm.trans failed))
        exact .inl rfl
    | behind again ended going meets =>
        obtain rfl := Option.some.inj (isCode.symm.trans again)
        obtain ⟨rfl, rfl⟩ := Prod.mk.inj (Option.some.inj (ran.symm.trans ended))
        exact .inr ⟨⟨_, rfl⟩, going, meets⟩
  · rintro (rfl | ⟨⟨value, rfl⟩, going, meets⟩)
    · exact .compiled isCode ran
    · exact .behind isCode ran going meets

/-- Once compiled code has come to rest, an error is recorded if the code has raised it, or if the blocks
behind code that has ended do. -/
theorem settle?_records {last : Turn} {rested : Except RunError Rest} (native : turn.host.Native)
    (leads : turn.Leads last) (settled : settle? foreign limits last rested = some after) :
    turn.Records (fun error => rested = .error error ∨ (∃ value, rested = .ok (.ended value)) ∧
      last.thread.isDone = false ∧ last.moveOn.Meets foreign limits.depth error) after := by
  cases rested with
  | error error =>
      obtain rfl := Option.some.inj settled
      refine .one (fun other => ?_) leads
      simp only [Except.error.injEq, reduceCtorEq, exists_const, false_and, or_false]
      exact eq_comm
  | ok rest =>
      unfold settle? at settled
      dsimp only at settled
      split at settled
      next isDone =>
        obtain rfl := Option.some.inj settled
        exact .none (by simp [isDone]) leads.errors
      next going =>
        cases rest with
        | suspended later =>
            obtain rfl := Option.some.inj settled
            exact .none (by simp) leads.errors
        | ended value =>
            have moved := leads.trans (moveOn_leads last)
            refine .imp (fun error => ?_)
              (.after_leads moved ((interprets_of_interpret? settled).records (moved.native native)))
            simp [going]
        | retired =>
            obtain rfl := Option.some.inj settled
            exact .none (by simp) leads.errors

/-- A turn records the error that is raised in it, if one is. -/
theorem take?_records (native : turn.host.Native) (taken : turn.take? foreign limits = some after) :
    turn.Records (turn.Raises foreign limits) after := by
  cases isCode : turn.thread.compiled with
  | none =>
      unfold take? at taken
      rw [isCode] at taken
      exact .imp (fun _ => raises_iff_of_plain isCode) ((interprets_of_interpret? taken).records native)
  | some sequence =>
      rw [take?_of_code isCode] at taken
      obtain ⟨⟨rested, last⟩, ran, settled⟩ := Option.bind_eq_some_iff.mp taken
      have leads := (detached_leads turn).trans (Sequence.run?_leads native ran)
      exact .imp (fun _ => raises_iff_of_code isCode ran) (settle?_records native leads settled)

end Turn

/-! ## Turns of a tick -/

namespace Host

variable {foreign : Foreign} {limits : Limits} {host current : Host} {place : Nat}
  {stepping : List Thread} {thread : Thread} {after : Turn}

theorem targetName_of_data {other : Host}
    (data : other.targets.map LiveTarget.data = host.targets.map LiveTarget.data) (target : Nat) :
    other.targetName target = host.targetName target := by
  have same := congrArg (fun targets : List Target => targets[target]?) data
  simp only [List.getElem?_map] at same
  unfold targetName
  cases found : other.targets[target]? <;> cases found' : host.targets[target]? <;>
    simp_all

/-- The tick goes on with the turn of the next thread. -/
theorem turns?_succ (turns : host.turns? foreign limits place = some (current, stepping))
    (found : stepping[place]? = some thread) (going : thread.isDone = false)
    (taken : Turn.take? foreign limits ⟨current, thread⟩ = some after) :
    host.turns? foreign limits (place + 1) =
      some (after.host.carryOutStops (stepping.set place after.thread)) := by
  have stepped : stepAt? foreign limits (current, stepping) place =
      some (after.host.carryOutStops (stepping.set place after.thread)) := by
    simp [stepAt?, found, going, taken]
  unfold turns? at turns ⊢
  rw [List.range_succ, List.foldlM_append, turns]
  simp [stepped]

/-- What a turn did to the errors and to its thread: nothing was raised and nothing is recorded, or one
error was raised and is recorded for the script, and the thread is over. -/
inductive FailsCleanly (foreign : Foreign) (limits : Limits) (current : Host) (thread : Thread)
    (after : Turn) : Prop
  | never (quiet : ∀ error, ¬ Turn.Raises foreign limits ⟨current, thread⟩ error)
      (errors : after.host.errors = current.errors)
  | once {error : RunError}
      (raised : ∀ other, Turn.Raises foreign limits ⟨current, thread⟩ other ↔ other = error)
      (errors : after.host.errors = current.errors ++
        [⟨current.targetName thread.target, thread.topBlock, error.message⟩])
      (isOver : after.thread.isDone = true) (frames : after.thread.frames = [])
      (detached : after.thread.compiled = none)

theorem failsCleanly_of_take? (native : current.Native)
    (taken : Turn.take? foreign limits ⟨current, thread⟩ = some after) :
    FailsCleanly foreign limits current thread after := by
  have records := Turn.take?_records native taken
  generalize started : (⟨current, thread⟩ : Turn) = turn at records
  cases records with
  | none quiet errors =>
      subst started
      exact .never quiet errors
  | @one last error raised leads =>
      subst started
      refine .once raised ?_ rfl rfl rfl
      change last.host.errors ++ [⟨last.host.targetName last.thread.target, last.thread.topBlock, _⟩] = _
      rw [leads.errors, leads.target, leads.topBlock, targetName_of_data leads.data]

end Host

/-- In every tick of every host that a program comes to, a turn records one error if it raises one, and
none otherwise.  A thread that raised an error is over.  The thread stays the one it was, and the other
threads of the tick stay as they are, but for those that are asked to stop, which end after the turn. -/
theorem turns_fail_once_and_alone {foreign : Foreign} {limits : Limits} {host current : Host}
    {place : Nat} {stepping : List Thread} {thread : Thread} {after : Turn}
    (reachable : host.Reachable foreign)
    (turns : host.turns? foreign limits place = some (current, stepping))
    (found : stepping[place]? = some thread) (going : thread.isDone = false)
    (taken : Turn.take? foreign limits ⟨current, thread⟩ = some after) :
    Host.FailsCleanly foreign limits current thread after ∧ thread.Becomes after.thread ∧
      ∃ last listed, host.turns? foreign limits (place + 1) = some (last, listed) ∧
        last.errors = after.host.errors ∧ listed[place]? = some (after.host.stopped after.thread) ∧
        ∀ other, other ≠ place → listed[other]? = stepping[other]?.map after.host.stopped := by
  obtain ⟨orderly, native⟩ := reachable.invariant
  have native' : current.Native := (orderly.midway native turns).native
  have passes := (Turn.take?_ends native' taken).passes
  have becomes : thread.Becomes after.thread :=
    ⟨passes.id, passes.target, passes.topBlock, fun isDone => by simp [going] at isDone⟩
  have next := Host.turns?_succ turns found going taken
  rw [Host.carryOutStops_eq] at next
  refine ⟨Host.failsCleanly_of_take? native' taken, becomes, _, _, next, rfl, ?_, ?_⟩
  · obtain ⟨inRange, -⟩ := List.getElem?_eq_some_iff.mp found
    rw [List.getElem?_map, List.getElem?_set_self inRange, Option.map_some]
  · intro other different
    rw [List.getElem?_map, List.getElem?_set_ne different.symm]

/-- A flag starts a script whose second block is missing, and another that loops. -/
def brokenTarget : Target where
  isStage := true
  name := "Stage"
  vars := .empty
  blocks := ⟨[
    ("h", .block { Block.bare "event_whenflagclicked" with next := some "gone", topLevel := true }),
    ("l", .block { Block.bare "event_whenflagclicked" with next := some "w", topLevel := true }),
    ("w", .block { Block.bare "control_forever" with parent := some "l" })]⟩
  comments := .empty
  extra := .empty

def brokenProgram : Project := ⟨[brokenTarget], [], .empty, .empty⟩

/-- The flag has been clicked. -/
def brokenStart : Host := (Host.start brokenProgram).greenFlag.1

theorem brokenStart_reachable : brokenStart.Reachable idleForeign :=
  .handle .greenFlag (.start brokenProgram false "en" []) rfl

/-- The turn of the first script fails, and that of the other is still to come. -/
theorem broken_script_fails_once_and_alone : ∃ after last listed, brokenStart.Reachable idleForeign ∧
    brokenStart.turns? idleForeign ⟨10, 2⟩ 0 =
      some (brokenStart.opening.1, [.start 0 0 "h", .start 1 0 "l"]) ∧
    Turn.take? idleForeign ⟨10, 2⟩ ⟨brokenStart.opening.1, .start 0 0 "h"⟩ = some after ∧
    after.host.errors = [⟨"Stage", "h", (RunError.missingBlock "gone").message⟩] ∧
    after.thread.isDone = true ∧ after.thread.frames = [] ∧
    brokenStart.turns? idleForeign ⟨10, 2⟩ 1 = some (last, listed) ∧
    listed[1]? = some (.start 1 0 "l") := by
  have turns : brokenStart.turns? idleForeign ⟨10, 2⟩ 0 =
      some (brokenStart.opening.1, [.start 0 0 "h", .start 1 0 "l"]) := rfl
  have taken : Turn.take? idleForeign ⟨10, 2⟩ ⟨brokenStart.opening.1, .start 0 0 "h"⟩ = some _ := rfl
  obtain ⟨fails, -, last, listed, next, -, -, others⟩ :=
    turns_fail_once_and_alone brokenStart_reachable turns rfl rfl taken
  refine ⟨_, last, listed, brokenStart_reachable, turns, taken, ?_⟩
  cases fails with
  | never quiet errors => cases errors
  | once raised errors isOver frames detached => exact ⟨rfl, isOver, frames, next, others 1 (by decide)⟩

end StepCode
