import StepCode.Proofs.Host.Ticks
import StepCode.Proofs.Simulation.Turns

/-!
# Ticks side by side

In a tick every compiled thread gets its turn where the thread that it follows gets its own, and stop
requests hit the same scripts.
-/

namespace StepCode

/-! ## Lists of threads -/

/-- A script without a body: its thread comes through the hat and ends. -/
structure World.Bare (world : World) (thread : Thread) : Prop where
  alive : thread.status ≠ .done
  uncompiled : thread.compiled = none
  atHat : ∃ frame id block before, thread.frames = [frame] ∧ frame.pc = some id ∧
    world.befores[thread.target]? = some before ∧ before.block? id = some block ∧ block.Passes ∧
    block.next = none

/-- A thread that has ended. -/
def Thread.Retired (thread : Thread) : Prop := thread = thread.retire

/-- The threads of two hosts in order.  Some threads of the left host may be without a counterpart. -/
inductive World.Aligned (world : World) (alone : Thread → Prop) : List Thread → List Thread → Prop
  | nil : Aligned world alone [] []
  | pair {thread follower : Thread} {threads followers : List Thread}
      (pair : world.Pair thread follower) (later : Aligned world alone threads followers) :
      Aligned world alone (thread :: threads) (follower :: followers)
  | alone {thread : Thread} {threads followers : List Thread} (only : alone thread)
      (later : Aligned world alone threads followers) : Aligned world alone (thread :: threads) followers

/-- A thread without a counterpart, before its turn. -/
def World.Idle (world : World) (thread : Thread) : Prop := world.Bare thread ∨ thread.Retired

section

variable {world : World} {foreign : Foreign} {limits : Limits} {host other : Host}
  {thread follower : Thread} {alone : Thread → Prop} {threads followers : List Thread}

namespace World.Aligned

theorem append {first second : List Thread} (aligned : world.Aligned alone threads followers)
    (later : world.Aligned alone first second) :
    world.Aligned alone (threads ++ first) (followers ++ second) := by
  induction aligned with
  | nil => exact later
  | pair pair _ ih => exact .pair pair ih
  | alone only _ ih => exact .alone only ih

theorem map {change another : Thread → Thread}
    (pairs : ∀ thread follower, world.Pair thread follower →
      world.Pair (change thread) (another follower))
    {other : Thread → Prop} (only : ∀ thread, alone thread → other (change thread))
    (aligned : world.Aligned alone threads followers) :
    world.Aligned other (threads.map change) (followers.map another) := by
  induction aligned with
  | nil => exact .nil
  | pair pair _ ih => exact .pair (pairs _ _ pair) ih
  | alone isAlone _ ih => exact .alone (only _ isAlone) ih

end World.Aligned

/-! ## Stop requests -/

theorem World.Pair.hits_eq (sound : world.Sound) (pair : world.Pair thread follower)
    (stop : StopRequest) :
    StopRequest.hits follower (stop.renamed world.rename) = StopRequest.hits thread stop := by
  cases stop with
  | all => rfl
  | others target keep =>
      have same : (follower.id != world.rename keep) = (thread.id != keep) := by
        rw [pair.id, bne, bne, sound.renames.beq_eq]
      simp only [StopRequest.renamed, StopRequest.hits, pair.target, same]

theorem Thread.Retired.stopped (host : Host) (retired : thread.Retired) :
    (host.stopped thread).Retired := by
  unfold Host.stopped
  split
  · exact rfl
  · exact retired

theorem World.Pair.stopped (sound : world.Sound) (hosts : world.Hosts host other)
    (pair : world.Pair thread follower) :
    world.Pair (host.stopped thread) (other.stopped follower) := by
  have same : other.stops.any (StopRequest.hits follower) = host.stops.any (StopRequest.hits thread) := by
    rw [hosts.stops, List.any_map]
    exact congrArg _ (funext fun stop => pair.hits_eq sound stop)
  unfold Host.stopped
  rw [same]
  split
  · exact ⟨pair.id, pair.target, pair.topBlock, .inr ⟨rfl, rfl⟩⟩
  · exact pair

/-- Once the stop requests are carried out there are none. -/
theorem World.Hosts.carriedOut (hosts : world.Hosts host other) :
    world.Hosts { host with threads := host.threads.map host.stopped, stops := [] }
      { other with threads := other.threads.map other.stopped, stops := [] } :=
  { hosts with
    alike := hosts.alike
    stops := rfl
    noneStarted := by simp [hosts.noneStarted] }

/-! ## Turns -/

/-- A thread without a body ends. -/
theorem World.Bare.take? (hosts : world.Hosts host other) (bare : world.Bare thread)
    (running : thread.status = .running) {last : Turn}
    (taken : Turn.take? foreign limits ⟨host, thread⟩ = some last) :
    last = ⟨host, thread.retire⟩ := by
  obtain ⟨frame, id, block, before, isFrame, pc, isTarget, found, passes, noBody⟩ := bare.atHat
  simp only [Turn.take?, bare.uncompiled] at taken
  obtain ⟨steps, depth⟩ := limits
  cases steps with
  | zero => simp [interpret?, running] at taken
  | succ steps =>
      rw [interpret?, if_neg (by simp [running])] at taken
      cases stepped : interpretStep? foreign depth ⟨host, thread⟩ with
      | none => simp [stepped] at taken
      | some result =>
          obtain rfl := interpretStep?_passes passes running isFrame pc
            (hosts.found_left isTarget found) stepped
          simp only [stepped, noBody] at taken
          cases steps with
          | zero => simp [interpret?, Turn.onward, running] at taken
          | succ steps =>
              rw [interpret?, if_neg (by simp [Turn.onward, running])] at taken
              exact (Option.some.inj taken).symm

/-- The turns of a pair. -/
theorem World.Pair.exists_stepAt? (sound : world.Sound) (hosts : world.Hosts host other)
    (pair : world.Pair thread follower) (awake : thread.wake = thread)
    (followerAwake : follower.wake = follower) {passed later : List Thread} {state : Host × List Thread}
    (stepped : Host.stepAt? foreign limits (host, passed ++ thread :: later) passed.length = some state) :
    ∃ (steps : Nat) (turn after : Turn), world.Hosts turn.host after.host ∧
      world.Pair turn.thread after.thread ∧
      state = turn.host.carryOutStops (passed ++ turn.thread :: later) ∧
      ∀ (limits : Limits) (passed later : List Thread), steps ≤ limits.steps →
        Host.stepAt? foreign limits (other, passed ++ follower :: later) passed.length =
          some (after.host.carryOutStops (passed ++ after.thread :: later)) := by
  rw [Host.stepAt?_middle] at stepped
  rcases pair.state with alive | ⟨leftEnded, rightEnded⟩
  · have leftRunning : thread.status = .running := awake ▸ Thread.status_wake alive.leftAlive
    have rightRunning : follower.status = .running :=
      followerAwake ▸ Thread.status_wake alive.rightAlive
    rw [if_neg (by simp [Thread.isDone, leftRunning])] at stepped
    obtain ⟨turn, taken, rfl⟩ := Option.map_eq_some_iff.mp stepped
    obtain ⟨steps, after, lastHosts, lastPair, takes⟩ :=
      alive.exists_take? sound hosts pair leftRunning rightRunning taken
    refine ⟨steps, turn, after, lastHosts, lastPair, rfl, fun limits passed later enough => ?_⟩
    rw [Host.stepAt?_middle, if_neg (by simp [Thread.isDone, rightRunning]), takes limits enough]
    rfl
  · have isDone : ∀ {thread : Thread}, thread = thread.retire → thread.isDone = true := by
      intro thread ended
      rw [ended]
      rfl
    rw [if_pos (isDone leftEnded)] at stepped
    refine ⟨0, ⟨host, thread⟩, ⟨other, follower⟩, hosts, pair, (Option.some.inj stepped).symm,
      fun limits passed later _ => ?_⟩
    rw [Host.stepAt?_middle, if_pos (isDone rightEnded)]

theorem carryOutStops_none (noStops : host.stops = []) (stepping : List Thread) :
    host.carryOutStops stepping = (host, stepping) := by
  have stays : host.stopped = fun thread => thread := by
    funext thread
    simp [Host.stopped, noStops]
  rw [Host.carryOutStops_eq, stays, List.map_id', List.map_id', ← noStops]

/-- The turn of a thread without a counterpart. -/
theorem World.Idle.stepAt? (hosts : world.Hosts host other) (noStops : host.stops = [])
    (idle : world.Idle thread) (awake : thread.wake = thread) {passed later : List Thread}
    {state : Host × List Thread}
    (stepped : Host.stepAt? foreign limits (host, passed ++ thread :: later) passed.length = some state) :
    state = (host, passed ++ thread.retire :: later) := by
  rw [Host.stepAt?_middle] at stepped
  rcases idle with bare | retired
  · have running : thread.status = .running := awake ▸ Thread.status_wake bare.alive
    rw [if_neg (by simp [Thread.isDone, running])] at stepped
    obtain ⟨turn, taken, rfl⟩ := Option.map_eq_some_iff.mp stepped
    obtain rfl := bare.take? hosts running taken
    exact carryOutStops_none noStops _
  · have isDone : thread.isDone = true := by
      rw [retired]
      rfl
    rw [if_pos isDone, carryOutStops_none noStops] at stepped
    rw [← retired]
    exact (Option.some.inj stepped).symm

theorem Thread.wake_stopped (awake : thread.wake = thread) :
    (host.stopped thread).wake = host.stopped thread := by
  unfold Host.stopped
  split
  · rfl
  · exact awake

theorem World.Idle.stopped (idle : world.Idle thread) : world.Idle (host.stopped thread) := by
  rcases idle with bare | retired
  · unfold Host.stopped
    split
    · exact .inr rfl
    · exact .inl bare
  · exact .inr (retired.stopped host)

/-- All turns that are left in a tick, by induction on their number: `passed` have had theirs. -/
theorem World.Aligned.exists_turns (sound : world.Sound) {count : Nat}
    {passed later passedFollowers laterFollowers : List Thread} {last : Host × List Thread}
    (hosts : world.Hosts host other) (noStops : host.stops = [])
    (before : world.Aligned Thread.Retired passed passedFollowers)
    (aligned : world.Aligned world.Idle later laterFollowers) (isCount : later.length = count)
    (awake : ∀ thread ∈ later, thread.wake = thread)
    (followersAwake : ∀ thread ∈ laterFollowers, thread.wake = thread)
    (turns : (List.range' passed.length count).foldlM (Host.stepAt? foreign limits)
      (host, passed ++ later) = some last) :
    ∃ (steps : Nat) (final : Host × List Thread), world.Hosts last.1 final.1 ∧ last.1.stops = [] ∧
      world.Aligned Thread.Retired last.2 final.2 ∧
      ∀ limits : Limits, steps ≤ limits.steps →
        (List.range' passedFollowers.length laterFollowers.length).foldlM (Host.stepAt? foreign limits)
          (other, passedFollowers ++ laterFollowers) = some final := by
  induction count generalizing host other passed later passedFollowers laterFollowers with
  | zero =>
      obtain rfl := List.length_eq_zero_iff.mp isCount
      obtain rfl := Option.some.inj turns
      cases aligned
      refine ⟨0, (other, passedFollowers ++ []), hosts, noStops, ?_, fun limits _ => rfl⟩
      exact before.append .nil
  | succ count ih =>
      rw [List.range'_succ, List.foldlM_cons] at turns
      obtain ⟨state, stepped, turns⟩ := Option.bind_eq_some_iff.mp turns
      cases aligned with
      | nil => cases isCount
      | @pair thread follower later laterFollowers pair aligned =>
          obtain ⟨steps, turn, after, turnHosts, turnPair, rfl, steps_follow⟩ := pair.exists_stepAt? sound
            hosts (awake _ (by simp)) (followersAwake _ (by simp)) stepped
          have pairs := fun thread follower (pair : world.Pair thread follower) =>
            pair.stopped sound turnHosts
          rw [Host.carryOutStops_eq, List.append_cons, List.map_append,
            show passed.length + 1 = ((passed ++ [turn.thread]).map turn.host.stopped).length by simp]
            at turns
          obtain ⟨more, final, lastHosts, lastStops, lastAligned, follow⟩ := ih turnHosts.carriedOut rfl
            ((before.append (.pair turnPair .nil)).map pairs fun _ retired => retired.stopped _)
            (aligned.map pairs fun _ idle => idle.stopped) (by simpa using isCount)
            (fun thread mem => by
              obtain ⟨earlier, isEarlier, rfl⟩ := List.mem_map.mp mem
              exact Thread.wake_stopped (awake _ (by simp [isEarlier])))
            (fun thread mem => by
              obtain ⟨earlier, isEarlier, rfl⟩ := List.mem_map.mp mem
              exact Thread.wake_stopped (followersAwake _ (by simp [isEarlier])))
            turns
          refine ⟨max steps more, final, lastHosts, lastStops, lastAligned, fun limits enough => ?_⟩
          rw [List.length_cons, List.range'_succ, List.foldlM_cons,
            steps_follow limits _ _ (Nat.le_trans (Nat.le_max_left _ _) enough)]
          have rest := follow limits (Nat.le_trans (Nat.le_max_right _ _) enough)
          simpa [Host.carryOutStops_eq] using rest
      | @alone thread later _ idle aligned =>
          obtain rfl := idle.stepAt? hosts noStops (awake _ (by simp)) stepped
          rw [List.append_cons,
            show passed.length + 1 = (passed ++ [thread.retire]).length by simp] at turns
          have passedAligned :=
            before.append (.alone rfl .nil : world.Aligned Thread.Retired [thread.retire] [])
          rw [List.append_nil] at passedAligned
          exact ih hosts noStops passedAligned aligned (by simpa using isCount)
            (fun thread mem => awake _ (by simp [mem])) followersAwake turns

/-! ## Whole ticks -/

/-- Two hosts between ticks, the right one with a program that is compiled. -/
structure World.Abreast (world : World) (left right : Host) : Prop where
  alike : left.Alike right
  befores : left.targets.map LiveTarget.data = world.befores
  afters : right.targets.map LiveTarget.data = world.afters
  clock : right.now = left.now + world.shift
  still : left.drift = [] ∧ right.drift = []
  errors : right.errors = left.errors
  noStops : left.stops = [] ∧ right.stops = []
  support : ∃ support, right.support = some support ∧
    ∀ after ∈ world.afters, support.Agrees (approvedHelpers Helper.shipped) after
  threads : world.Aligned world.Idle left.threads right.threads

theorem World.Abreast.opening (abreast : world.Abreast host other) :
    world.Hosts host.opening.1 other.opening.1 where
  alike := abreast.alike
  befores := abreast.befores
  afters := abreast.afters
  clock := by
    change other.readClock.now = host.readClock.now + world.shift
    rw [Host.readClock_of_still abreast.still.1, Host.readClock_of_still abreast.still.2]
    exact abreast.clock
  still := ⟨congrArg List.tail abreast.still.1, congrArg List.tail abreast.still.2⟩
  leftTick := rfl
  rightTick := rfl
  errors := abreast.errors
  stops := by
    change other.stops = host.stops.map _
    rw [abreast.noStops.1, abreast.noStops.2, List.map_nil]
  noneStarted := ⟨rfl, rfl⟩
  support := abreast.support

theorem World.Pair.isDone_eq (pair : world.Pair thread follower) :
    follower.isDone = thread.isDone := by
  rcases pair.state with alive | ⟨leftEnded, rightEnded⟩
  · simp [Thread.isDone, alive.leftAlive, alive.rightAlive]
  · rw [leftEnded, rightEnded]
    rfl

/-- Threads without a counterpart are gone once they have ended. -/
theorem World.Aligned.filter (aligned : world.Aligned Thread.Retired threads followers) :
    List.Forall₂ world.Pair (threads.filter fun thread => !thread.isDone)
      (followers.filter fun thread => !thread.isDone) := by
  induction aligned with
  | nil => exact .nil
  | @pair thread follower _ _ pair _ ih =>
      have same := pair.isDone_eq
      cases isDone : thread.isDone with
      | true => simpa [isDone, same] using ih
      | false => simpa [isDone, same] using .intro pair ih
  | @alone thread _ _ retired _ ih =>
      have isDone : thread.isDone = true := by
        rw [retired]
        rfl
      simpa [isDone] using ih

theorem World.Aligned.of_pairs (pairs : List.Forall₂ world.Pair threads followers) :
    world.Aligned alone threads followers := by
  induction pairs with
  | nil => exact .nil
  | cons pair _ ih => exact .pair pair ih

theorem remaining_nil (stepping : List Thread) :
    Host.remaining stepping [] = stepping.filter fun thread => !thread.isDone := by
  simp [Host.remaining]

theorem Thread.wake_wake (thread : Thread) : thread.wake.wake = thread.wake := by
  simp only [Thread.wake_eq]
  cases thread.status <;> rfl

theorem World.Idle.wake (idle : world.Idle thread) : world.Idle thread.wake := by
  rcases idle with bare | retired
  · refine .inl ⟨by simp [Thread.status_wake bare.alive], ?_, ?_⟩
    · simpa only [Thread.wake_eq] using bare.uncompiled
    · simpa only [Thread.wake_eq] using bare.atHat
  · refine .inr ?_
    rw [retired]
    rfl

/-- A tick of the compiled program keeps it abreast, and the threads that are left are pairs. -/
theorem World.Abreast.exists_tick? (sound : world.Sound) (abreast : world.Abreast host other)
    {last : Host} (ticked : host.tick? foreign limits = some last) :
    ∃ (steps : Nat) (final : Host), world.Abreast last final ∧
      List.Forall₂ world.Pair last.threads final.threads ∧
      ∀ limits : Limits, steps ≤ limits.steps → other.tick? foreign limits = some final := by
  obtain ⟨closing, stepping, turns, rfl⟩ := Host.tick?_cases ticked
  have woken : world.Aligned world.Idle (host.threads.map Thread.wake) (other.threads.map Thread.wake) :=
    abreast.threads.map (fun _ _ pair => pair.wake) fun _ idle => idle.wake
  have awake : ∀ threads : List Thread, ∀ thread ∈ threads.map Thread.wake, thread.wake = thread := by
    intro threads thread mem
    obtain ⟨earlier, -, rfl⟩ := List.mem_map.mp mem
    exact earlier.wake_wake
  rw [List.range_eq_range'] at turns
  obtain ⟨steps, ⟨finalHost, finalStepping⟩, hosts, noStops, aligned, follow⟩ :=
    World.Aligned.exists_turns sound abreast.opening abreast.noStops.1 .nil woken (by simp)
      (awake _) (awake _) turns
  have pairs := aligned.filter
  rw [← remaining_nil, ← remaining_nil] at pairs
  refine ⟨steps, { finalHost with threads := Host.remaining finalStepping finalHost.threads }, ?_, ?_,
    fun limits enough => ?_⟩
  · refine ⟨hosts.alike, hosts.befores, hosts.afters, hosts.clock, hosts.still, hosts.errors, ⟨noStops, ?_⟩,
      hosts.support, ?_⟩
    · have stops := hosts.stops
      rw [noStops] at stops
      exact stops
    · rw [hosts.noneStarted.1, hosts.noneStarted.2]
      exact .of_pairs pairs
  · rw [hosts.noneStarted.1, hosts.noneStarted.2]
    exact pairs
  · have ran := follow limits enough
    rw [List.length_nil, ← List.range_eq_range', List.length_map] at ran
    exact Host.tick?_of_turns ran

end

end StepCode
