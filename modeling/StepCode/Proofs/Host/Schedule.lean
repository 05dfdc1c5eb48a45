import StepCode.Proofs.Host.Restarts

/-!
# Rounds

A tick is a round over the threads at its beginning: each has one turn, at its place, unless it is
done by then.  Threads that are started in a round have no turn in it.  They are listed behind those
that go on, in the order in which they were started, and a script that was started more than once is
listed for its last start only.
-/

namespace StepCode

/-! ## Started scripts -/

/-- The threads of scripts that are started one after the other, with ids from `first` on; a later
start of a script replaces an earlier one. -/
def Thread.lastStarts (first : Nat) : List (Nat × String) → List Thread
  | [] => []
  | script :: rest =>
      if script ∈ rest then lastStarts (first + 1) rest
      else .start first script.1 script.2 :: lastStarts (first + 1) rest

theorem Thread.lastStarts_cons (first : Nat) (script : Nat × String) (rest : List (Nat × String)) :
    lastStarts first (script :: rest) =
      if script ∈ rest then lastStarts (first + 1) rest
      else .start first script.1 script.2 :: lastStarts (first + 1) rest := rfl

theorem Thread.mem_script_lastStarts (first : Nat) {scripts : List (Nat × String)}
    {script : Nat × String} :
    script ∈ (lastStarts first scripts).map Thread.script ↔ script ∈ scripts := by
  induction scripts generalizing first with
  | nil => simp [lastStarts]
  | cons other rest ih =>
      rw [lastStarts_cons]
      split
      next again =>
        rw [ih, List.mem_cons, iff_or_self]
        rintro rfl
        exact again
      next =>
        rw [List.map_cons, List.mem_cons, ih, List.mem_cons]
        rfl

theorem Thread.becomes_all_trans {first second third : List Thread}
    (one : List.Forall₂ Becomes first second) (other : List.Forall₂ Becomes second third) :
    List.Forall₂ Becomes first third := by
  induction one generalizing third with
  | nil => exact other
  | cons here _ ih =>
      cases other with
      | cons later rest => exact .cons (here.trans later) (ih rest)

namespace Host

theorem startThreads_cons (host : Host) (script : Nat × String) (rest : List (Nat × String)) :
    (host.startThreads (script :: rest)).1 =
      ((host.startThread script.1 script.2).startThreads rest).1 := rfl

/-- Of the threads before, those of other scripts stay. -/
theorem threads_startThreads (host : Host) (scripts : List (Nat × String)) :
    (host.startThreads scripts).1.threads =
      (host.threads.filter fun thread => !scripts.contains thread.script) ++
        Thread.lastStarts host.nextThread scripts := by
  induction scripts generalizing host with
  | nil => simp [startThreads, Thread.lastStarts]
  | cons script rest ih =>
      let first := Thread.start host.nextThread script.1 script.2
      have started : (host.startThread script.1 script.2).threads =
          host.threads.filter (fun thread => !(thread.script == script)) ++ [first] := rfl
      rw [startThreads_cons, ih, started, List.filter_append, List.filter_filter, List.append_assoc]
      congr 1
      · refine List.filter_congr fun thread _ => ?_
        rw [List.contains_cons, Bool.not_or, Bool.and_comm]
      · rw [Thread.lastStarts_cons]
        by_cases again : script ∈ rest
        · have dropped : rest.contains first.script = true := List.contains_iff_mem.mpr again
          rw [if_pos again, List.filter_singleton, dropped]
          rfl
        · have kept : rest.contains first.script = false := by
            rw [Bool.eq_false_iff, ne_eq, List.contains_iff_mem]
            exact again
          rw [if_neg again, List.filter_singleton, kept]
          rfl

/-- What is started depends on the list of threads only, and on the next id. -/
theorem startThreads_becomes {host other : Host} (nextThread : other.nextThread = host.nextThread)
    (becomes : List.Forall₂ Thread.Becomes host.threads other.threads) (scripts : List (Nat × String)) :
    List.Forall₂ Thread.Becomes (host.startThreads scripts).1.threads
      (other.startThreads scripts).1.threads := by
  rw [threads_startThreads, threads_startThreads, nextThread]
  refine List.rel_append (List.rel_filter ?_ becomes) ?_
  · intro thread later here
    simp only [here.script]
  · exact List.forall₂_same.mpr fun thread _ => .refl thread

/-- Starting scripts, and some more, is starting them all. -/
theorem startThreads_append (host : Host) (scripts more : List (Nat × String)) :
    (host.startThreads (scripts ++ more)).1 = ((host.startThreads scripts).1.startThreads more).1 := by
  induction scripts generalizing host with
  | nil => rfl
  | cons script rest ih => exact ih _

theorem Starts.exists_scripts {host after : Host} (starts : host.Starts after) :
    ∃ scripts, after.threads = (host.startThreads scripts).1.threads ∧
      after.nextThread = (host.startThreads scripts).1.nextThread := by
  induction starts with
  | none threads nextThread => exact ⟨[], threads, nextThread⟩
  | @start middle after target topBlock _ threads nextThread ih =>
      obtain ⟨scripts, before, count⟩ := ih
      refine ⟨scripts ++ [(target, topBlock)], ?_, ?_⟩
      · rw [startThreads_append, threads]
        change (middle.startThread target topBlock).threads =
          ((host.startThreads scripts).1.startThread target topBlock).threads
        unfold startThread
        rw [before, count]
      · rw [startThreads_append, nextThread, count]
        rfl

end Host

/-! ## Rounds -/

/-- The host once the stop requests are carried out. -/
def Host.afterStops (host : Host) : Host :=
  { host with threads := host.threads.map host.stopped, stops := [] }

/-- From a moment of a tick to its end.  The threads `passed` have had their turns, and those `later`
are still to have theirs.  In what is left of the tick the threads with the ids `log` are stepped, the
scripts are started, and the tick ends with `last` and the threads `stepping`. -/
inductive Host.Round (foreign : Foreign) (limits : Limits) : (host : Host) → (passed later : List Thread) →
    (log : List Nat) → (scripts : List (Nat × String)) → (last : Host) → (stepping : List Thread) → Prop
  | ended {host : Host} {passed : List Thread} : Round foreign limits host passed [] [] [] host passed
  /-- A thread that is done when its turn comes is not stepped. -/
  | skip {host last : Host} {thread : Thread} {passed later stepping : List Thread} {log : List Nat}
      {scripts : List (Nat × String)} (isDone : thread.isDone = true)
      (rest : Round foreign limits host.afterStops ((passed ++ [thread]).map host.stopped)
        (later.map host.stopped) log scripts last stepping) :
      Round foreign limits host passed (thread :: later) log scripts last stepping
  /-- Every other thread is, and may start scripts. -/
  | step {host last : Host} {thread : Thread} {turn : Turn} {passed later stepping : List Thread}
      {log : List Nat} {now scripts : List (Nat × String)} (going : thread.isDone = false)
      (taken : Turn.take? foreign limits ⟨host, thread⟩ = some turn)
      (threads : turn.host.threads = (host.startThreads now).1.threads)
      (nextThread : turn.host.nextThread = (host.startThreads now).1.nextThread)
      (rest : Round foreign limits turn.host.afterStops
        ((passed ++ [turn.thread]).map turn.host.stopped) (later.map turn.host.stopped) log scripts
        last stepping) :
      Round foreign limits host passed (thread :: later) (thread.id :: log) (now ++ scripts) last
        stepping

namespace Host

section

variable {foreign : Foreign} {limits : Limits} {host last : Host} {passed later stepping : List Thread}
  {log : List Nat} {scripts : List (Nat × String)}

/-- The turns of the threads from a place on are a round. -/
theorem exists_round (native : host.Native)
    (turns : (List.range' passed.length later.length).foldlM (stepAt? foreign limits)
      (host, passed ++ later) = some (last, stepping)) :
    ∃ log scripts, Round foreign limits host passed later log scripts last stepping := by
  generalize isCount : later.length = count at turns
  induction count generalizing host passed later with
  | zero =>
      obtain rfl := List.length_eq_zero_iff.mp isCount
      obtain ⟨rfl, rfl⟩ := Prod.mk.inj (Option.some.inj turns)
      rw [List.append_nil]
      exact ⟨[], [], .ended⟩
  | succ count ih =>
      obtain ⟨thread, later, rfl⟩ := List.exists_cons_of_length_eq_add_one isCount
      rw [List.range'_succ, List.foldlM_cons, Option.bind_eq_bind, Option.bind_eq_some_iff] at turns
      obtain ⟨state, stepped, rest⟩ := turns
      -- what follows the turn is a round again
      have goesOn (turn : Turn) (native : turn.host.Native)
          (isState : turn.host.carryOutStops (passed ++ turn.thread :: later) = state) :
          ∃ log scripts, Round foreign limits turn.host.afterStops
            ((passed ++ [turn.thread]).map turn.host.stopped) (later.map turn.host.stopped) log scripts
            last stepping := by
        refine ih native ?_ ?_
        · rw [List.length_map]
          exact Nat.succ.inj isCount
        · rw [← List.map_append, List.append_assoc, List.length_map, List.length_append]
          rw [← isState] at rest
          exact rest
      rw [stepAt?_middle] at stepped
      cases isDone : thread.isDone with
      | true =>
          rw [isDone, if_pos rfl] at stepped
          obtain ⟨log, scripts, round⟩ := goesOn ⟨host, thread⟩ native (Option.some.inj stepped)
          exact ⟨log, scripts, .skip isDone round⟩
      | false =>
          rw [isDone, if_neg Bool.false_ne_true] at stepped
          obtain ⟨turn, taken, isState⟩ := Option.map_eq_some_iff.mp stepped
          have passes := (Turn.take?_ends native taken).passes
          obtain ⟨now, threads, nextThread⟩ := passes.starts.exists_scripts
          obtain ⟨log, scripts, round⟩ := goesOn turn (passes.native native) isState
          exact ⟨thread.id :: log, now ++ scripts, .step isDone taken threads nextThread round⟩

namespace Round

/-- Only threads that wait for their turns are stepped, in their order and each once. -/
theorem log_sublist (round : Round foreign limits host passed later log scripts last stepping) :
    log.Sublist (later.map Thread.id) := by
  have ids (host : Host) (threads : List Thread) :
      (threads.map host.stopped).map Thread.id = threads.map Thread.id := by
    rw [List.map_map]
    exact List.map_congr_left fun thread _ => (host.becomes_stopped thread).id
  induction round with
  | ended => exact .slnil
  | skip isDone _ ih =>
      rw [ids] at ih
      exact ih.cons _
  | step going taken threads nextThread _ ih =>
      rw [ids] at ih
      exact ih.cons_cons _

/-- The threads that are listed at the end of a round are those that were listed, but for the scripts
that it started. -/
theorem started (round : Round foreign limits host passed later log scripts last stepping) :
    List.Forall₂ Thread.Becomes (host.startThreads scripts).1.threads last.threads := by
  have stopped (host : Host) : List.Forall₂ Thread.Becomes host.threads host.afterStops.threads :=
    List.forall₂_map_right_iff.mpr (List.forall₂_same.mpr fun thread _ => host.becomes_stopped thread)
  induction round with
  | ended => exact List.forall₂_same.mpr fun thread _ => .refl thread
  | @skip host _ _ _ _ _ _ scripts _ _ ih =>
      have sameNext : host.afterStops.nextThread = host.nextThread := rfl
      exact Thread.becomes_all_trans (startThreads_becomes sameNext (stopped host) scripts) ih
  | @step host _ _ turn _ _ _ _ now scripts _ _ threads nextThread _ ih =>
      rw [startThreads_append]
      have sameNext : turn.host.afterStops.nextThread = (host.startThreads now).1.nextThread := nextThread
      have here : List.Forall₂ Thread.Becomes (host.startThreads now).1.threads
          turn.host.afterStops.threads := threads ▸ stopped turn.host
      exact Thread.becomes_all_trans (startThreads_becomes sameNext here scripts) ih

end Round

end

/-- The scripts of the threads that were started are the scripts that were. -/
theorem any_sameScript_started {first : Nat} {scripts : List (Nat × String)} {started : List Thread}
    (becomes : List.Forall₂ Thread.Becomes (Thread.lastStarts first scripts) started) (thread : Thread) :
    started.any (·.sameScript thread) = scripts.contains thread.script := by
  have isMap : (Thread.lastStarts first scripts).map Thread.script = started.map Thread.script :=
    map_eq_of_forall₂ becomes fun _ _ here => here.script.symm
  have listed : started.any (·.sameScript thread) = (started.map Thread.script).contains thread.script := by
    rw [List.contains_eq_any_beq, List.any_map]
    refine List.any_congr rfl fun other => ?_
    rw [Thread.sameScript_comm]
    rfl
  rw [listed, ← isMap, Bool.eq_iff_iff, List.contains_iff_mem, List.contains_iff_mem]
  exact Thread.mem_script_lastStarts first

end Host

/-- Every tick is a round.  It steps threads of the list at its beginning only, in their order and each
once; these are all that are not done when their turns come.  Afterwards the list has the old threads
that are neither done nor of a script that was started in the tick, then those that were started. -/
theorem ticks_step_and_list_threads_in_order {foreign : Foreign} {limits : Limits} {host after : Host}
    (reachable : host.Reachable foreign) (ticked : host.tick? foreign limits = some after) :
    ∃ log scripts last stepping,
      Host.Round foreign limits host.opening.1 [] host.opening.2 log scripts last stepping ∧
      log.Sublist (host.threads.map Thread.id) ∧ log.Nodup ∧
      List.Forall₂ Thread.Becomes host.threads stepping ∧
      List.Forall₂ Thread.Becomes (Thread.lastStarts host.nextThread scripts) last.threads ∧
      (∀ thread ∈ last.threads, thread.Unstepped ∧ thread.id ∉ log) ∧
      after = { last with
        threads := (stepping.filter fun thread =>
          !thread.isDone && !scripts.contains thread.script) ++ last.threads } := by
  obtain ⟨orderly, native⟩ := reachable.invariant
  obtain ⟨last, stepping, turns, rfl⟩ := Host.tick?_cases ticked
  have midway := orderly.midway native turns
  have inPlaces : (List.range' 0 host.opening.2.length).foldlM (Host.stepAt? foreign limits)
      (host.opening.1, [] ++ host.opening.2) = some (last, stepping) := by
    rw [Host.opening, List.length_map, ← List.range_eq_range']
    exact turns
  have opened : host.opening.1.Native := native
  obtain ⟨log, scripts, round⟩ := Host.exists_round opened inPlaces
  have stepped : log.Sublist (host.threads.map Thread.id) := by
    have woken : host.opening.2.map Thread.id = host.threads.map Thread.id := by
      rw [Host.opening, List.map_map]
      exact List.map_congr_left fun thread _ => (Thread.Becomes.wake thread).id
    exact woken ▸ round.log_sublist
  have nodup : (host.threads.map Thread.id).Nodup :=
    (List.pairwise_map.mpr orderly.ids).imp fun less => Nat.ne_of_lt less
  have started : List.Forall₂ Thread.Becomes (Thread.lastStarts host.nextThread scripts) last.threads := by
    have listed := round.started
    rw [Host.threads_startThreads] at listed
    exact listed
  refine ⟨log, scripts, last, stepping, round, stepped, stepped.nodup nodup, midway.becomes, started,
    fun thread mem => ⟨midway.unstepped thread mem, fun isStepped => ?_⟩, ?_⟩
  · obtain ⟨old, isOld, same⟩ := List.mem_map.mp (stepped.subset isStepped)
    have older := (orderly.range old isOld).2
    have newer := (midway.lined.range thread mem).1
    omega
  · simp only [Host.remaining, Host.any_sameScript_started started]

/-- The sender goes on, and the receiver that it starts anew takes the place of the old one. -/
theorem echo_round : echoStart.Reachable idleForeign ∧
    ∃ after log scripts last stepping, echoStart.tick? idleForeign ⟨10, 2⟩ = some after ∧
      Host.Round idleForeign ⟨10, 2⟩ echoStart.opening.1 [] echoStart.opening.2 log scripts last
        stepping ∧
      log.Sublist [0, 1] ∧ log.Nodup ∧ after.threads.map Thread.id = [0, 2] ∧
      after.threads = (stepping.filter fun thread =>
        !thread.isDone && !scripts.contains thread.script) ++ last.threads := by
  have ticked : echoStart.tick? idleForeign ⟨10, 2⟩ = some _ := rfl
  obtain ⟨log, scripts, last, stepping, round, stepped, nodup, -, -, -, isAfter⟩ :=
    ticks_step_and_list_threads_in_order echoStart_reachable ticked
  exact ⟨echoStart_reachable, _, log, scripts, last, stepping, ticked, round, stepped, nodup, rfl,
    congrArg Host.threads isAfter⟩

end StepCode
