import StepCode.Proofs.Bootstrap
import StepCode.Proofs.Host.Restarts
import StepCode.Proofs.Script.Printing
import StepCode.Proofs.Simulation.Steps

/-!
# Where compiled threads pause

A thread whose script is compiled goes on with the same code in a later tick only if the code has come
to a yield that counts or to a block that has to run again.  In every other turn the thread is done in
the end, or the code has ended and the blocks behind its marker are run.
-/

namespace StepCode

/-! ## Code on the threads of a host -/

theorem Thread.Coded.wake {thread : Thread} (coded : thread.Coded) : thread.wake.Coded := by
  unfold Thread.wake
  split
  · exact coded
  · exact coded

namespace Host

theorem coded_stopped (host : Host) {thread : Thread} (coded : thread.Coded) :
    (host.stopped thread).Coded := by
  unfold stopped
  split
  · exact nofun
  · exact coded

/-- Stop requests give up the tick for no thread. -/
theorem awake_stopped (host : Host) {thread : Thread} (awake : thread.status ≠ .yielded) :
    (host.stopped thread).status ≠ .yielded := by
  unfold stopped
  split
  · exact nofun
  · exact awake

/-- The code of every thread is in order. -/
def Coded (host : Host) : Prop := ∀ thread ∈ host.threads, thread.Coded

theorem Starts.coded {host after : Host} (starts : host.Starts after) (coded : host.Coded) :
    after.Coded := by
  intro thread mem
  rcases starts.mem mem with before | isStart
  · exact coded thread before
  · rw [isStart]
    exact nofun

/-- A tick on its way: the turn at `place` is next, and the threads from there on have not given up the
tick. -/
structure Ready (place : Nat) (state : Host × List Thread) : Prop where
  native : state.1.Native
  started : state.1.Coded
  coded : ∀ thread ∈ state.2, thread.Coded
  awake : ∀ index thread, place ≤ index → state.2[index]? = some thread → thread.status ≠ .yielded

section

variable {foreign : Foreign} {limits : Limits} {host after : Host}

theorem Ready.opening (coded : host.Coded) (native : host.Native) : Ready 0 host.opening where
  native := native
  started := by simp [Coded, Host.opening]
  coded := by
    intro thread mem
    obtain ⟨earlier, isEarlier, rfl⟩ := List.mem_map.mp mem
    exact (coded earlier isEarlier).wake
  awake := by
    intro index thread _ found
    obtain ⟨earlier, -, rfl⟩ := List.mem_map.mp (List.mem_of_getElem? found)
    exact earlier.wake_ne_yielded

theorem Ready.stepAt? {place : Nat} {state next : Host × List Thread} (ready : Ready place state)
    (stepped : Host.stepAt? foreign limits state place = some next) : Ready (place + 1) next := by
  obtain ⟨host, stepping⟩ := state
  rcases stepAt?_cases ready.native stepped with ⟨-, rfl⟩ | ⟨thread, turn, found, passes, -, -, rfl⟩
  · exact { ready with awake := fun index thread later => ready.awake index thread (by omega) }
  · rw [carryOutStops_eq]
    refine ⟨passes.native ready.native, ?_, ?_, ?_⟩
    · intro other mem
      obtain ⟨earlier, isEarlier, rfl⟩ := List.mem_map.mp mem
      exact turn.host.coded_stopped (passes.starts.coded ready.started earlier isEarlier)
    · intro other mem
      obtain ⟨earlier, isEarlier, rfl⟩ := List.mem_map.mp mem
      refine turn.host.coded_stopped ?_
      rcases List.mem_or_eq_of_mem_set isEarlier with isOld | rfl
      · exact ready.coded earlier isOld
      · exact passes.coded (ready.coded thread (List.mem_of_getElem? found))
    · intro index other later isOther
      rw [List.getElem?_map, List.getElem?_set_ne (by omega), Option.map_eq_some_iff] at isOther
      obtain ⟨earlier, isEarlier, rfl⟩ := isOther
      exact turn.host.awake_stopped (ready.awake index earlier (by omega) isEarlier)

theorem ready_of_turns? (coded : host.Coded) (native : host.Native) {place : Nat}
    {state : Host × List Thread} (turns : host.turns? foreign limits place = some state) :
    Ready place state := by
  induction place generalizing state with
  | zero =>
      obtain rfl := Option.some.inj turns
      exact .opening coded native
  | succ place ih =>
      unfold turns? at turns
      rw [List.range_succ, List.foldlM_append, Option.bind_eq_bind, Option.bind_eq_some_iff] at turns
      obtain ⟨middle, earlier, last⟩ := turns
      rw [List.foldlM_cons, Option.bind_eq_bind, Option.bind_eq_some_iff] at last
      obtain ⟨next, stepped, isNext⟩ := last
      obtain rfl := Option.some.inj isNext
      exact (ih earlier).stepAt? stepped

theorem Coded.tick? (coded : host.Coded) (native : host.Native)
    (ticked : host.tick? foreign limits = some after) : after.Coded := by
  obtain ⟨last, stepping, turns, rfl⟩ := tick?_cases ticked
  have ready : Ready host.threads.length (last, stepping) := ready_of_turns? coded native turns
  intro thread mem
  rcases mem_remaining mem with ⟨isOld, -⟩ | isNew
  · exact ready.coded thread isOld
  · exact ready.started thread isNew

/-- The code of every thread is in order, whatever was done to the host. -/
theorem Reachable.coded (reachable : host.Reachable foreign) : host.Coded := by
  induction reachable with
  | start project unsandboxed locale drift => simp [Coded, Host.start]
  | install _ done ih =>
      obtain ⟨bootstrap, rfl⟩ := install_eq done
      exact ih
  | @handle middle _ event before done ih =>
      obtain ⟨orderly, native⟩ := before.invariant
      cases event with
      | greenFlag | broadcast message | startHats opcode field =>
          obtain rfl := Option.some.inj done
          exact (Starts.startThreads middle _).coded ih
      | tick limits => exact ih.tick? native done
      | runToIdle limits most =>
          obtain ⟨⟨last, ticks⟩, ran, rfl⟩ := Option.map_eq_some_iff.mp done
          have kept : ∀ first last : Host, (first.Orderly ∧ first.Native) ∧ first.Coded →
              first.tick? foreign limits = some last → (last.Orderly ∧ last.Native) ∧ last.Coded :=
            fun _ _ holds ticked => ⟨holds.1.1.tick? holds.1.2 ticked, holds.2.tick? holds.1.2 ticked⟩
          exact (runToIdle?_invariant kept ⟨⟨orderly, native⟩, ih⟩ ran).2
      | stopAll =>
          obtain rfl := Option.some.inj done
          simp [Coded, stopAll]
      | requestStop stop | setVariable target name value | advanceClock nanoseconds =>
          obtain rfl := Option.some.inj done
          exact ih

end

end Host

/-! ## One turn -/

/-- When the turn is over, the thread goes on with the same code, from where it was suspended. -/
def Turn.StaysAttached (foreign : Foreign) (start : Sequence × Turn) (after : Turn) : Prop :=
  ∃ later last, Sequence.RestsWith foreign start (.ok (.suspended later)) last ∧
    last.thread.isDone = false ∧
    after = { last with thread := { last.thread with compiled := some later } }

/-- The code has ended on a running thread, and the interpreter has gone on behind its marker. -/
def Turn.GoesOnBehind (foreign : Foreign) (limits : Limits) (start : Sequence × Turn) (after : Turn) :
    Prop :=
  ∃ value last, Sequence.RestsWith foreign start (.ok (.ended value)) last ∧
    last.thread.status = .running ∧
    interpret? foreign limits.depth limits.steps last.moveOn = some after

/-- The thread of the turn is running, unless it is done. -/
def Turn.RunningOrDone (turn : Turn) : Prop :=
  turn.thread.status = .running ∨ turn.thread.isDone = true

/-- The turn of a thread with compiled code, from the moment `start` when the code is taken up. -/
structure Turn.Resumed (foreign : Foreign) (limits : Limits) (start : Sequence × Turn) (after : Turn) :
    Prop where
  /-- Whenever a call runs a statement, however deep, the thread is running, unless it is done. -/
  running : ∀ moment, Sequence.Visits foreign start moment → moment.2.RunningOrDone
  /-- A reporter does not give up the tick. -/
  reported : ∀ moment routine params expr value later, Sequence.Visits foreign start moment →
    (eval foreign routine params expr).run.run moment.2 = (.ok value, later) → later.RunningOrDone
  /-- A block that is finished does not give up the tick either: the code goes on behind it. -/
  finished : ∀ op calls turn completion later, Sequence.Visits foreign start (⟨some op, calls⟩, turn) →
    (runBlock foreign op.opcode op.args op.state).run.run turn = (.ok completion, later) →
    completion.finished = true → later.thread.isDone = false →
    Sequence.Visits foreign start (⟨none, calls⟩, { later with thread := later.thread.wake })
  /-- One answer stands for all places where the code breaks off.  The status of the thread tells them
  apart: the thread is done; or a block that the code has waited for has given up the tick, and the code
  is resumed in the same turn; or the thread is running, and the code pauses. -/
  told_apart : ∀ moment later answered, Sequence.Visits foreign start moment →
    (moment.1.resume foreign).run.run moment.2 = (.ok (.yield later), answered) →
    answered.thread.isDone = true ∨
    (answered.thread.status = .yielded ∧ moment.1.pending.isSome = true ∧
      Sequence.Visits foreign start (later, { answered with thread := answered.thread.wake })) ∨
    (answered.thread.status = .running ∧ moment.1.Pauses foreign moment.2 ∧
      Sequence.RestsWith foreign start (.ok (.suspended later)) answered)
  /-- The code stays exactly if it comes to a place where it pauses. -/
  attached_iff : Turn.StaysAttached foreign start after ↔
    ∃ moment, Sequence.Visits foreign start moment ∧ moment.1.Pauses foreign moment.2
  /-- Otherwise the thread is done, or the code has ended. -/
  otherwise : ¬ Turn.StaysAttached foreign start after →
    after.thread.isDone = true ∨ Turn.GoesOnBehind foreign limits start after

namespace Turn

variable {foreign : Foreign} {limits : Limits} {turn after : Turn} {sequence : Sequence}

theorem Awake.runningOrDone (awake : turn.Awake) : turn.RunningOrDone := by
  unfold RunningOrDone Thread.isDone
  cases isStatus : turn.thread.status with
  | running => exact .inl rfl
  | yielded => exact (awake isStatus).elim
  | done => exact .inr rfl

theorem settle?_cases {last : Turn} {rested : Except RunError Rest}
    (settled : settle? foreign limits last rested = some after) :
    after.thread.isDone = true ∨ last.thread.isDone = false ∧
      ((∃ later, rested = .ok (.suspended later) ∧
          after = { last with thread := { last.thread with compiled := some later } }) ∨
        (∃ value, rested = .ok (.ended value) ∧
          interpret? foreign limits.depth limits.steps last.moveOn = some after) ∨
        rested = .ok .retired) := by
  cases rested with
  | error error =>
      obtain rfl := Option.some.inj settled
      exact .inl rfl
  | ok rest =>
      unfold settle? at settled
      dsimp only at settled
      split at settled
      next isDone =>
        obtain rfl := Option.some.inj settled
        exact .inl isDone
      next going =>
        refine .inr ⟨Bool.not_eq_true _ ▸ going, ?_⟩
        cases rest with
        | suspended later => exact .inl ⟨later, rfl, (Option.some.inj settled).symm⟩
        | ended value => exact .inr (.inl ⟨value, rfl, settled⟩)
        | retired => exact .inr (.inr rfl)

/-- The turn of a thread with compiled code is settled by the one way in which the code comes to
rest. -/
theorem exists_settle?_of_take? (isCode : turn.thread.compiled = some sequence)
    (taken : turn.take? foreign limits = some after) :
    ∃ rested last, settle? foreign limits last rested = some after ∧ ∀ outcome other,
      Sequence.RestsWith foreign (sequence, turn.detached) outcome other ↔
        outcome = rested ∧ other = last := by
  rw [take?_of_code isCode] at taken
  obtain ⟨⟨rested, last⟩, ran, settled⟩ := Option.bind_eq_some_iff.mp taken
  exact ⟨rested, last, settled, fun _ _ => Sequence.restsWith_iff_of_run? ran⟩

/-- The turn of a thread that has not given up the tick, and whose calls have made each other. -/
theorem resumed_of_take? (isCode : turn.thread.compiled = some sequence)
    (coded : turn.thread.Coded) (awake : turn.Awake)
    (taken : turn.take? foreign limits = some after) :
    Turn.Resumed foreign limits (sequence, turn.detached) after := by
  have lineal : Lineal sequence.calls := coded sequence isCode
  obtain ⟨rested, last, settled, unique⟩ := exists_settle?_of_take? isCode taken
  refine ⟨?_, ?_, ?_, ?_, ?_, ?_⟩
  · exact fun moment visits => ((visits.lineal lineal).2 awake).runningOrDone
  · intro moment routine params expr value later visits evaluated
    have still := (visits.lineal lineal).2
    exact (Sequence.eval_wakeful still value later evaluated awake).runningOrDone
  · exact fun _ _ _ _ _ visits ran finished going => visits.finish ran finished going
  · exact fun _ _ _ visits answered => visits.breaksOff lineal awake answered
  · refine Iff.trans ?_ (Sequence.suspended_iff_pauses lineal awake)
    constructor
    · exact fun ⟨later, last, rests, going, _⟩ => ⟨later, last, rests, going⟩
    · rintro ⟨later, other, rests, going⟩
      obtain ⟨rfl, rfl⟩ := (unique _ _).mp rests
      refine ⟨later, other, rests, going, ?_⟩
      rw [settle?, going] at settled
      exact (Option.some.inj settled).symm
  · intro left
    have comes := (unique rested last).mpr ⟨rfl, rfl⟩
    rcases settle?_cases settled with isDone | ⟨going, ⟨later, rfl, same⟩ | ⟨value, rfl, behind⟩ | rfl⟩
    · exact .inl isDone
    · exact (left ⟨later, last, comes, going, same⟩).elim
    · have fits := comes.fits lineal
      refine .inr ⟨value, last, comes, (fits.awake awake).runningOrDone.resolve_right ?_, behind⟩
      rw [going]
      exact nofun
    · have isDone := (comes.fits lineal).retired rfl
      rw [isDone] at going
      cases going

end Turn

/-! ## Markers -/

/-- A marker looks for its code, and notes in the support that it has been met.  If the code can be
loaded, it is attached, and the thread gives up the tick.  It is entered in warp mode exactly if the
marker is met in warp mode. -/
theorem enterMarker_run {call : Call} {marker source : String} {support : Support}
    (isBlock : call.site = .block marker) (isSupport : call.host.support = some support) :
    (enterMarker source).run.run call =
      match { support with entered := true }.markerRoutine
        (call.host.targetName call.thread.target) marker source with
      | .error error => (.error (.load error),
          { call with host := { call.host with support := some { support with entered := true } } })
      | .ok (routine, later) => (.ok .empty, { call with
          host := { call.host with support := some later }
          thread := { call.thread with
            status := .yielded
            compiled := some ⟨none, [Activation.enter routine (.ofList (routine.params.map fun name =>
              (name, (call.thread.param? name).getD .empty))) call.thread.inWarp]⟩ }
          signals := { call.signals with rerun := true } }) := by
  have seen : Yields (ε := RunError) get call call := rfl
  have marked : Yields Operation.blockId? call (some marker) := by
    refine seen.bind ?_
    rw [isBlock]
    exact .pure call _
  unfold enterMarker
  rw [marked.run_bind]
  dsimp only
  rw [seen.run_bind]
  simp only [isSupport, Operation.modifyHost]
  rw [run_modify_bind]
  cases { support with entered := true }.markerRoutine
      (call.host.targetName call.thread.target) marker source with
  | error error => rfl
  | ok loaded => rfl

theorem enterMarker_attaches {call : Call} {marker source : String} {support later : Support}
    {routine : Routine} (isBlock : call.site = .block marker)
    (isSupport : call.host.support = some support)
    (loaded : { support with entered := true }.markerRoutine
      (call.host.targetName call.thread.target) marker source = .ok (routine, later)) :
    (enterMarker source).run.run call = (.ok .empty, { call with
      host := { call.host with support := some later }
      thread := { call.thread with
        status := .yielded
        compiled := some ⟨none, [Activation.enter routine (.ofList (routine.params.map fun name =>
          (name, (call.thread.param? name).getD .empty))) call.thread.inWarp]⟩ }
      signals := { call.signals with rerun := true } }) := by
  rw [enterMarker_run isBlock isSupport, loaded]

/-- A marker whose code cannot be loaded fails, and leaves the support as it is. -/
theorem enterMarker_fails {call : Call} {marker source : String} {support : Support} {error : LoadError}
    (isBlock : call.site = .block marker) (isSupport : call.host.support = some support)
    (failed : { support with entered := true }.markerRoutine
      (call.host.targetName call.thread.target) marker source = .error error) :
    (enterMarker source).run.run call = (.error (.load error),
      { call with host := { call.host with support := some { support with entered := true } } }) := by
  rw [enterMarker_run isBlock isSupport, failed]

/-- The only argument of a marker is the text in its slot. -/
theorem readArgs_marker (foreign : Foreign) (depth : Nat) (parent source : String) (turn : Turn) :
    Yields (readArgs (readSlot foreign depth (.marker parent source)) (.marker parent source)) turn
      (.ofList [(markerInput, .text source)]) := by
  have slots : (Block.marker parent source).inputs.keys.filter (fun name => !holdsStatements name) =
      [markerInput] := by
    change [markerInput].filter (fun name => !holdsStatements name) = [markerInput]
    decide
  unfold Yields readArgs
  rw [slots]
  rfl

/-! ## Where compiled threads pause -/

/-- In the turns of a tick, compiled code pauses exactly at yields outside warp mode, at yields where the
clock shows the tick to be overdue, and at blocks that have to run again.  In all other turns the thread
is done in the end, or its code has ended and the blocks behind its marker are run. -/
theorem compiled_threads_pause_at_yields_and_reruns {foreign : Foreign} {limits : Limits}
    {host current : Host} {stepping : List Thread} {place : Nat} {thread : Thread}
    {sequence : Sequence} {after : Turn} (reachable : host.Reachable foreign)
    (turns : host.turns? foreign limits place = some (current, stepping))
    (found : stepping[place]? = some thread) (isCode : thread.compiled = some sequence)
    (taken : Turn.take? foreign limits ⟨current, thread⟩ = some after) :
    Turn.Resumed foreign limits (sequence, ⟨current, { thread with compiled := none }⟩) after := by
  have ready := Host.ready_of_turns? reachable.coded reachable.invariant.2 turns
  have coded := ready.coded thread (List.mem_of_getElem? found)
  have awake : Turn.Awake ⟨current, thread⟩ := ready.awake place thread (Nat.le_refl _) found
  exact Turn.resumed_of_take? isCode coded awake taken

/-! ### A script that pauses -/

/-- Give up the tick once. -/
def yieldingScript : Script := ⟨[], [.yield]⟩

def yieldingRoutine : Routine := ⟨yieldingScript, Routine.numbered yieldingScript.body, .empty, rfl⟩

/-- A script that calls no helpers is loaded without any. -/
theorem Routine.load_helperless {source : String} {script : Script}
    (parsed : Script.parse source = .ok script) (nothing : script.helperNames = [])
    (table : Table Helper) :
    Routine.load source table = .ok ⟨script, Routine.numbered script.body, .empty, rfl⟩ := by
  have linked : Routine.link table .empty script.helperNames.reverse = .ok .empty := by
    rw [nothing, List.reverse_nil, Routine.link]
  exact (Routine.load_eq_ok parsed).mpr ⟨_, linked, rfl⟩

theorem load_yieldingScript (table : Table Helper) :
    Routine.load yieldingScript.print table = .ok yieldingRoutine := by
  have wellFormed : StmtsWellFormed yieldingScript.body := ⟨trivial, trivial⟩
  exact Routine.load_helperless (Script.parse_print wellFormed) rfl table

/-- A flag starts a script that calls a procedure in warp mode.  The procedure is compiled. -/
def yieldingTarget (source : String) : Target where
  isStage := true
  name := "Stage"
  vars := .empty
  blocks := ⟨[
    ("h", .block { Block.bare "event_whenflagclicked" with next := some "c", topLevel := true }),
    ("c", .block { Block.bare callOpcode with
      parent := some "h"
      mutation := some ⟨some "p", none, none, some (.bool true), .empty⟩ }),
    ("d", .block { Block.bare definitionOpcode with
      next := some "m"
      inputs := ⟨[("custom_block", .array [.int 1, .text "q"])]⟩
      topLevel := true }),
    ("q", .block { Block.bare "procedures_prototype" with
      parent := some "d"
      mutation := some ⟨some "p", none, none, some (.bool true), .empty⟩ }),
    ("m", .block (.marker "d" source))]⟩
  comments := .empty
  extra := .empty

def yieldingProgram (source : String) : Project := ⟨[yieldingTarget source], [], .empty, .empty⟩

section

-- The support, the source and the readings of the clock are variables, so that nothing unfolds the
-- shipped helpers.
variable (source : String) (support : Support) (drift : List Nat)

/-- The program with support for compiled code. -/
def yieldingHost : Host :=
  let start := { Host.start (yieldingProgram source) with
    unsandboxed := true, locale := "en", drift := drift }
  { start with
    support := some support
    extensions := start.extensions.insert supportExtension .support }

/-- The script at the beginning of the first tick. -/
def atHat : Turn := ⟨(yieldingHost source support drift).greenFlag.1.opening.1, .start 0 0 "h"⟩

/-- The script behind its hat. -/
def atCall : Turn :=
  { atHat source support drift with thread := { Thread.start 0 0 "h" with frames := [.start "c"] } }

/-- The script at the block `id` of the procedure. -/
def inProcedure (id : String) : Turn :=
  { atHat source support drift with
    thread := { Thread.start 0 0 "h" with
      frames := [{ Frame.start id with warp := true, params := some .empty },
        { Frame.start "c" with pc := none }] } }

/-- The code at its only statement. -/
def atYield : Sequence := ⟨none, [Activation.enter yieldingRoutine .empty true]⟩

/-- The support when the marker has been run. -/
def yieldingSupport : Support :=
  { support with
    markers := support.markers.add ("Stage", "m") yieldingRoutine
    entered := true }

/-- The script when its marker has been run. -/
def behindMarker : Turn :=
  ⟨{ (inProcedure source support drift "m").host with support := some (yieldingSupport support) },
    { (inProcedure source support drift "m").thread with status := .yielded, compiled := some atYield }⟩

/-- The host after its first tick. -/
def pausedHost : Host :=
  { (behindMarker source support drift).host with threads := [(behindMarker source support drift).thread] }

variable {source support drift}

/-- A step after which the thread goes on. -/
theorem interpret?_onward {foreign : Foreign} {depth fuel : Nat} {turn next : Turn}
    (running : turn.thread.status = .running)
    (stepped : interpretStep? foreign depth turn = some (next, true)) :
    interpret? foreign depth (fuel + 1) turn = interpret? foreign depth fuel next := by
  rw [interpret?, if_neg (not_not.mpr running), stepped]

/-- A step after which it does not. -/
theorem interpret?_over {foreign : Foreign} {depth fuel : Nat} {turn next : Turn}
    (running : turn.thread.status = .running)
    (stepped : interpretStep? foreign depth turn = some (next, false)) :
    interpret? foreign depth (fuel + 1) turn = some next := by
  rw [interpret?, if_neg (not_not.mpr running), stepped]

theorem interpretStep?_atHat : interpretStep? idleForeign 2 (atHat source support drift) =
    some (atCall source support drift, true) := rfl

theorem interpretStep?_atCall : interpretStep? idleForeign 2 (atCall source support drift) =
    some (inProcedure source support drift "d", true) := rfl

theorem interpretStep?_atDefinition : interpretStep? idleForeign 2 (inProcedure source support drift "d") =
    some (inProcedure source support drift "m", true) := rfl

theorem interpretStep?_atMarker (fresh : support.markers = .empty)
    (loaded : Routine.load source support.helpers = .ok yieldingRoutine) :
    interpretStep? idleForeign 2 (inProcedure source support drift "m") =
      some (behindMarker source support drift, false) := by
  have isRoutine : { support with entered := true }.markerRoutine "Stage" "m" source =
      .ok (yieldingRoutine, yieldingSupport support) := by
    have absent : { support with entered := true }.markers.get? ("Stage", "m") = none := by
      rw [fresh]
      rfl
    exact Support.markerRoutine_eq_ok.mpr (.inr ⟨absent, loaded, rfl⟩)
  have found : (inProcedure source support drift "m").host.block? 0 "m" = some (.marker "d" source) := rfl
  let call : Call := ⟨inProcedure source support drift "m", .block "m", .fresh, .none⟩
  have entered : (enterMarker source).run.run call = _ := enterMarker_attaches rfl rfl isRoutine
  have performs : (dispatch idleForeign markerOpcode (.ofList [(markerInput, .text source)])).perform
      (.block "m") .fresh (inProcedure source support drift "m") = _ := entered
  exact interpretStep?_of_runs rfl rfl (runBlockAt_of_performs found (readArgs_marker ..) performs)

/-- The clock stands until the yield asks it in the second tick. -/
theorem overdue_of_pausedHost {late : Nat} (isLate : 500000000 < late) :
    (pausedHost source support [0, 0, late]).opening.1.isOverdue = false ∧
      (pausedHost source support [0, 0, late]).opening.1.readClock.isOverdue = true := by
  have young : (pausedHost source support [0, 0, late]).opening.1.tickAge = 0 + 0 + 0 - (0 + 0 + 0) := rfl
  have old : (pausedHost source support [0, 0, late]).opening.1.readClock.tickAge =
      0 + 0 + 0 + late - (0 + 0 + 0) := rfl
  rw [Host.isOverdue, Host.isOverdue, young, old]
  simp [isLate]

variable (drift) in
theorem tick?_yieldingHost (fresh : support.markers = .empty)
    (loaded : Routine.load source support.helpers = .ok yieldingRoutine) :
    (yieldingHost source support drift).greenFlag.1.tick? idleForeign ⟨10, 2⟩ =
      some (pausedHost source support drift) := by
  have taken : Turn.take? idleForeign ⟨10, 2⟩ (atHat source support drift) =
      some (behindMarker source support drift) :=
    (interpret?_onward rfl interpretStep?_atHat).trans <|
      (interpret?_onward rfl interpretStep?_atCall).trans <|
      (interpret?_onward rfl interpretStep?_atDefinition).trans <|
      interpret?_over rfl (interpretStep?_atMarker fresh loaded)
  have stepped : Host.stepAt? idleForeign ⟨10, 2⟩
      (yieldingHost source support drift).greenFlag.1.opening 0 =
      some ((behindMarker source support drift).host.carryOutStops
        [(behindMarker source support drift).thread]) := by
    have goesOn : ¬ (atHat source support drift).thread.isDone = true := nofun
    exact (Host.stepAt?_middle [] []).trans ((if_neg goesOn).trans (congrArg _ taken))
  have turns : (List.range 1).foldlM (Host.stepAt? idleForeign ⟨10, 2⟩)
      (yieldingHost source support drift).greenFlag.1.opening =
      some ((behindMarker source support drift).host, [(behindMarker source support drift).thread]) := by
    change Host.stepAt? idleForeign ⟨10, 2⟩ (yieldingHost source support drift).greenFlag.1.opening 0 >>= _ = _
    rw [stepped]
    rfl
  exact Host.tick?_of_turns turns

end

/-- If code pauses with its first step, the turn is over. -/
theorem Turn.exists_take?_of_pauses {foreign : Foreign} {limits : Limits} {turn : Turn}
    {sequence : Sequence} (isCode : turn.thread.compiled = some sequence)
    (lineal : Lineal sequence.calls) (awake : turn.Awake) (enough : 1 ≤ limits.steps)
    (pauses : sequence.Pauses foreign turn.detached) :
    ∃ after, turn.take? foreign limits = some after := by
  have stillAwake : turn.detached.Awake := awake
  obtain ⟨later, last, stepped, going⟩ := pauses.suspends lineal stillAwake
  have rests : (sequence.step foreign).run.run turn.detached =
      ((Except.ok (.suspended later)).map Step.rest, last) := stepped
  have ran := Sequence.run?_of_le enough (Sequence.run?_of_rests rests)
  refine ⟨{ last with thread := { last.thread with compiled := some later } }, ?_⟩
  rw [Turn.take?_of_code isCode, ran, Option.bind_some, Turn.settle?, going]
  rfl

theorem yieldingHost_reachable (drift : List Nat) :
    (yieldingHost yieldingScript.print (.ofBootstrap ⟨"1", Helper.shipped⟩) drift).Reachable idleForeign :=
  .install (.start (yieldingProgram _) true "en" drift) (Host.install_document rfl "1" false)

/-- At the beginning of its second tick the program is in time.  At the yield, which is in warp mode, it
finds the tick overdue, and pauses. -/
theorem yielding_thread_pauses : ∃ (host current : Host) (stepping : List Thread) (thread : Thread)
    (sequence : Sequence) (after : Turn), host.Reachable idleForeign ∧
    host.turns? idleForeign ⟨10, 2⟩ 0 = some (current, stepping) ∧ stepping[0]? = some thread ∧
    thread.compiled = some sequence ∧ InWarpMode sequence.calls ∧ current.isOverdue = false ∧
    Turn.take? idleForeign ⟨10, 2⟩ ⟨current, thread⟩ = some after ∧
    Turn.StaysAttached idleForeign (sequence, ⟨current, { thread with compiled := none }⟩) after := by
  obtain ⟨late, isLate⟩ : ∃ late, 500000000 < late := ⟨600000000, by decide⟩
  have flagged := Host.Reachable.handle .greenFlag (yieldingHost_reachable [0, 0, late]) rfl
  have ticked := tick?_yieldingHost [0, 0, late] rfl
    (load_yieldingScript (Support.ofBootstrap ⟨"1", Helper.shipped⟩).helpers)
  have reachable := Host.Reachable.handle (.tick ⟨10, 2⟩) flagged ticked
  generalize Support.ofBootstrap ⟨"1", Helper.shipped⟩ = support at reachable
  generalize yieldingScript.print = source at reachable
  let paused := pausedHost source support [0, 0, late]
  let thread := (behindMarker source support [0, 0, late]).thread.wake
  have turns : paused.turns? idleForeign ⟨10, 2⟩ 0 = some (paused.opening.1, [thread]) := rfl
  have found : [thread][0]? = some thread := rfl
  have isCode : thread.compiled = some atYield := rfl
  obtain ⟨inTime, overdue⟩ := overdue_of_pausedHost isLate
  have pauses : atYield.Pauses idleForeign (Turn.detached ⟨paused.opening.1, thread⟩) :=
    .yield rfl (.inr overdue) rfl
  obtain ⟨after, taken⟩ : ∃ after, Turn.take? idleForeign ⟨10, 2⟩ ⟨paused.opening.1, thread⟩ = some after :=
    Turn.exists_take?_of_pauses isCode (.outermost _) nofun (by decide) pauses
  have resumed := compiled_threads_pause_at_yields_and_reruns reachable turns found isCode taken
  exact ⟨_, _, _, _, _, _, reachable, turns, found, isCode, .directly rfl, inTime, taken,
    resumed.attached_iff.mpr ⟨_, .refl, pauses⟩⟩

end StepCode
