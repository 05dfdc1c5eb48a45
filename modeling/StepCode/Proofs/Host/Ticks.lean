import StepCode.Proofs.Host.Threads
import StepCode.Proofs.Host.Turns

/-!
# Ticks

A tick takes the list of threads apart: the threads at its beginning get their turns, while those it
starts gather in a list of their own.  Stop requests are carried out on both after every turn.
-/

namespace StepCode

/-! ## After a turn -/

namespace Turn.Ends

variable {turn after : Turn}

theorem passes (ends : turn.Ends after) : turn.Passes after := by
  cases ends with
  | onward leads => exact leads.toPasses
  | ended leads => exact { leads.toPasses with coded := fun _ => nofun }
  | failed leads error =>
      exact { leads.toPasses with
        starts := leads.starts.trans (.none rfl rfl)
        coded := fun _ => nofun }

/-- A thread that can go on is consistent after its turn, or else about to be stopped. -/
theorem consistent (ends : turn.Ends after) (live : turn.Live) :
    after.thread.Consistent ∨ .all ∈ after.host.stops := by
  cases ends with
  | onward leads =>
      exact (leads.live live).imp_left fun going => Thread.consistent_of_going going.1 going.2
  | ended leads => exact .inl (Thread.consistent_retire _)
  | failed leads error => exact .inl (Thread.consistent_retire _)

end Turn.Ends

namespace Host

/-- A thread once the stop requests are carried out. -/
def stopped (host : Host) (thread : Thread) : Thread :=
  if host.stops.any (StopRequest.hits thread) then thread.retire else thread

theorem carryOutStops_eq (host : Host) (stepping : List Thread) :
    host.carryOutStops stepping =
      ({ host with threads := host.threads.map host.stopped, stops := [] },
        stepping.map host.stopped) := rfl

section

variable {host : Host} {thread : Thread}

theorem becomes_stopped (host : Host) (thread : Thread) : thread.Becomes (host.stopped thread) := by
  unfold stopped
  split
  · exact .retire thread
  · exact .refl thread

theorem isDone_stopped {stop : StopRequest} (mem : stop ∈ host.stops)
    (hit : StopRequest.hits thread stop = true) : (host.stopped thread).isDone = true := by
  have hits : host.stops.any (StopRequest.hits thread) = true := List.any_eq_true.mpr ⟨stop, mem, hit⟩
  rw [stopped, if_pos hits]
  rfl

theorem consistent_stopped (fit : thread.Consistent ∨ .all ∈ host.stops) :
    (host.stopped thread).Consistent := by
  unfold stopped
  split
  · exact thread.consistent_retire
  next missed =>
    refine fit.elim id fun pending => absurd ?_ missed
    exact List.any_eq_true.mpr ⟨.all, pending, rfl⟩

theorem unstepped_stopped (unstepped : thread.Unstepped) : (host.stopped thread).Unstepped := by
  unfold stopped
  split
  · rcases unstepped with isStart | isRetired
    · refine .inr ?_
      rw [isStart]
      rfl
    · refine .inr ?_
      rw [isRetired]
      rfl
  · exact unstepped

end

/-! ## One turn of a tick -/

section

variable {foreign : Foreign} {limits : Limits} {host : Host} {thread : Thread}
  {stepping : List Thread} {index : Nat} {after : Host × List Thread}

/-- The turn of the thread in the middle of a list. -/
theorem stepAt?_middle (passed later : List Thread) :
    stepAt? foreign limits (host, passed ++ thread :: later) passed.length =
      if thread.isDone then some (host.carryOutStops (passed ++ thread :: later))
      else (Turn.take? foreign limits ⟨host, thread⟩).map fun turn =>
        turn.host.carryOutStops (passed ++ turn.thread :: later) := by
  simp only [stepAt?, List.getElem?_append_right (Nat.le_refl _), Nat.sub_self,
    List.getElem?_cons_zero, List.set_append_right _ _ (Nat.le_refl _), List.set_cons_zero]
  cases Turn.take? foreign limits ⟨host, thread⟩ <;> rfl

/-- All that the turn of a thread comes to in a tick.  A thread that is done already only waits for
the stop requests. -/
theorem stepAt?_cases (native : host.Native)
    (stepped : stepAt? foreign limits (host, stepping) index = some after) :
    stepping[index]? = none ∧ after = (host, stepping) ∨
    ∃ thread, ∃ turn : Turn, stepping[index]? = some thread ∧ Turn.Passes ⟨host, thread⟩ turn ∧
      thread.Becomes turn.thread ∧
      (thread.Consistent → turn.thread.Consistent ∨ .all ∈ turn.host.stops) ∧
      after = turn.host.carryOutStops (stepping.set index turn.thread) := by
  unfold stepAt? at stepped
  dsimp only at stepped
  split at stepped
  next missing => exact .inl ⟨missing, (Option.some.inj stepped).symm⟩
  next thread found =>
    refine .inr ⟨thread, ?_⟩
    split at stepped
    next isDone =>
      have same : stepping.set index thread = stepping := by
        obtain ⟨inRange, rfl⟩ := List.getElem?_eq_some_iff.mp found
        exact List.set_getElem_self inRange
      refine ⟨⟨host, thread⟩, found, .refl _, .refl _, fun consistent => .inl consistent, ?_⟩
      rw [same]
      exact (Option.some.inj stepped).symm
    next going =>
      split at stepped
      · cases stepped
      next turn taken =>
        have ends := Turn.take?_ends native taken
        have passes := ends.passes
        refine ⟨turn, found, passes, ?_, fun consistent => ?_, (Option.some.inj stepped).symm⟩
        · exact ⟨passes.id, passes.target, passes.topBlock, fun done => absurd done going⟩
        · have frames := consistent.frames_ne_nil (Bool.not_eq_true _ ▸ going)
          exact ends.consistent (.inl ⟨Bool.not_eq_true _ ▸ going, frames⟩)

theorem forall₂_set {threads : List Thread} {thread later : Thread}
    (becomes : List.Forall₂ Thread.Becomes threads stepping) (found : stepping[index]? = some thread)
    (here : thread.Becomes later) :
    List.Forall₂ Thread.Becomes threads (stepping.set index later) := by
  induction becomes generalizing index with
  | nil => simp at found
  | cons first rest ih =>
      cases index with
      | zero =>
          obtain rfl := Option.some.inj found
          exact .cons (first.trans here) rest
      | succ index => exact .cons first (ih (by simpa using found))

/-- The threads of a tick stay where they are, and those that are done stay done. -/
theorem stepAt?_becomes (native : host.Native)
    (stepped : stepAt? foreign limits (host, stepping) index = some after) :
    List.Forall₂ Thread.Becomes stepping after.2 := by
  have same : List.Forall₂ Thread.Becomes stepping stepping :=
    List.forall₂_same.mpr fun thread _ => .refl thread
  rcases stepAt?_cases native stepped with ⟨-, rfl⟩ | ⟨thread, turn, found, -, here, -, rfl⟩
  · exact same
  · rw [carryOutStops_eq, List.forall₂_map_right_iff]
    exact (forall₂_set same found here).imp fun _ _ becomes =>
      becomes.trans (turn.host.becomes_stopped _)

/-- The requests have been carried out on the threads of a tick, and no other waits. -/
structure Cleared (requests : List StopRequest) (state : Host × List Thread) : Prop where
  native : state.1.Native
  stops : state.1.stops = []
  done : ∀ thread ∈ state.2, ∀ stop ∈ requests, StopRequest.hits thread stop = true →
    thread.isDone = true

/-- The turn of a thread carries out the requests that wait for it. -/
theorem cleared_of_stepAt? (native : host.Native) (inRange : index < stepping.length)
    (stepped : stepAt? foreign limits (host, stepping) index = some after) :
    Cleared host.stops after := by
  rcases stepAt?_cases native stepped with ⟨missing, -⟩ | ⟨_, turn, -, passes, -, -, rfl⟩
  · exact absurd (List.getElem?_eq_none_iff.mp missing) (Nat.not_le_of_lt inRange)
  · rw [carryOutStops_eq]
    refine ⟨passes.native native, rfl, fun thread mem stop isStop hit => ?_⟩
    obtain ⟨earlier, -, rfl⟩ := List.mem_map.mp mem
    rw [(turn.host.becomes_stopped earlier).hits] at hit
    exact isDone_stopped (passes.stops isStop) hit

theorem Cleared.stepAt? {requests : List StopRequest} {state : Host × List Thread}
    (cleared : Cleared requests state)
    (stepped : Host.stepAt? foreign limits state index = some after) : Cleared requests after := by
  obtain ⟨current, stepping⟩ := state
  have becomes := stepAt?_becomes cleared.native stepped
  have done : ∀ thread ∈ after.2, ∀ stop ∈ requests, StopRequest.hits thread stop = true →
      thread.isDone = true := by
    intro thread mem stop isStop hit
    obtain ⟨earlier, isEarlier, here⟩ := exists_of_mem_right becomes mem
    rw [here.hits] at hit
    exact here.done (cleared.done earlier isEarlier stop isStop hit)
  rcases stepAt?_cases cleared.native stepped with ⟨-, rfl⟩ | ⟨_, turn, -, passes, -, -, rfl⟩
  · exact cleared
  · exact ⟨passes.native cleared.native, rfl, done⟩

end

/-! ## The whole tick -/

/-- The beginning of a tick: no thread has been started in it, and those that gave up the last one run
again. -/
def opening (host : Host) : Host × List Thread :=
  ({ host.readClock with
      ticks := host.ticks + 1, tickStarted := host.readClock.now, threads := [] },
    host.threads.map Thread.wake)

/-- A tick on its way.  `threads` are those at its beginning, and `since` is the id that the first
thread started in it gets; `fit` holds of the threads that get their turns. -/
structure Midway (fit : Thread → Prop) (threads : List Thread) (since : Nat)
    (state : Host × List Thread) : Prop where
  native : state.1.Native
  becomes : List.Forall₂ Thread.Becomes threads state.2
  fit : ∀ thread ∈ state.2, fit thread
  since_le : since ≤ state.1.nextThread
  lined : Lined since state.1.nextThread state.1.threads
  unstepped : ∀ thread ∈ state.1.threads, thread.Unstepped

namespace Midway

variable {foreign : Foreign} {limits : Limits} {threads : List Thread} {since : Nat}

/-- After the stop requests are carried out, the threads that were about to be stopped are
consistent too. -/
theorem carryOutStops {host : Host} {stepping : List Thread}
    (midway : Midway (fun thread => thread.Consistent ∨ .all ∈ host.stops) threads since
      (host, stepping)) :
    Midway Thread.Consistent threads since (host.carryOutStops stepping) where
  native := midway.native
  becomes := by
    rw [carryOutStops_eq, List.forall₂_map_right_iff]
    exact midway.becomes.imp fun _ _ becomes => becomes.trans (host.becomes_stopped _)
  fit := by
    intro thread mem
    obtain ⟨earlier, isEarlier, rfl⟩ := List.mem_map.mp mem
    exact consistent_stopped (midway.fit earlier isEarlier)
  since_le := midway.since_le
  lined := by
    refine midway.lined.of_becomes ?_
    rw [carryOutStops_eq, List.forall₂_map_right_iff, List.forall₂_same]
    exact fun thread _ => host.becomes_stopped thread
  unstepped := by
    intro thread mem
    obtain ⟨earlier, isEarlier, rfl⟩ := List.mem_map.mp mem
    exact unstepped_stopped (midway.unstepped earlier isEarlier)

theorem stepAt? {state after : Host × List Thread} {index : Nat}
    (midway : Midway Thread.Consistent threads since state)
    (stepped : Host.stepAt? foreign limits state index = some after) :
    Midway Thread.Consistent threads since after := by
  obtain ⟨host, stepping⟩ := state
  rcases stepAt?_cases midway.native stepped with
    ⟨-, rfl⟩ | ⟨thread, turn, found, passes, here, consistent, rfl⟩
  · exact midway
  · obtain ⟨since_le, lined⟩ := passes.starts.lined midway.since_le midway.lined
    refine carryOutStops ⟨passes.native midway.native, ?_, ?_, since_le, lined, ?_⟩
    · exact forall₂_set midway.becomes found here
    · intro other mem
      rcases List.mem_or_eq_of_mem_set mem with mem | rfl
      · exact .inl (midway.fit other mem)
      · exact consistent (midway.fit thread (List.mem_of_getElem? found))
    · intro other mem
      exact (passes.starts.mem mem).elim (midway.unstepped other) .inl

theorem opening {host : Host} (orderly : host.Orderly) (native : host.Native) :
    Midway Thread.Consistent host.threads host.nextThread host.opening where
  native := native
  becomes := by
    rw [Host.opening, List.forall₂_map_right_iff, List.forall₂_same]
    exact fun thread _ => .wake thread
  fit := by
    intro thread mem
    obtain ⟨earlier, isEarlier, rfl⟩ := List.mem_map.mp mem
    exact (orderly.consistent earlier isEarlier).wake
  since_le := Nat.le_refl _
  lined := .nil
  unstepped := by simp [Host.opening]

end Midway

section

variable {foreign : Foreign} {limits : Limits} {host after : Host}

/-- A tick is the turns of all threads, and what they leave. -/
theorem tick?_cases (ticked : host.tick? foreign limits = some after) :
    ∃ last stepping, (List.range host.threads.length).foldlM (stepAt? foreign limits) host.opening =
        some (last, stepping) ∧
      after = { last with threads := remaining stepping last.threads } := by
  unfold tick? at ticked
  dsimp only at ticked
  rw [List.length_map, Option.bind_eq_bind, Option.bind_eq_some_iff] at ticked
  obtain ⟨⟨last, stepping⟩, turns, joined⟩ := ticked
  exact ⟨last, stepping, turns, (Option.some.inj joined).symm⟩

theorem tick?_of_turns {last : Host} {stepping : List Thread}
    (turns : (List.range host.threads.length).foldlM (stepAt? foreign limits) host.opening =
      some (last, stepping)) :
    host.tick? foreign limits = some { last with threads := remaining stepping last.threads } := by
  unfold Host.tick?
  dsimp only
  rw [List.length_map]
  change (List.range host.threads.length).foldlM (stepAt? foreign limits) host.opening >>= _ = _
  rw [turns]
  rfl

theorem Orderly.midway (orderly : host.Orderly) (native : host.Native) {indices : List Nat}
    {state : Host × List Thread}
    (turns : indices.foldlM (stepAt? foreign limits) host.opening = some state) :
    Midway Thread.Consistent host.threads host.nextThread state :=
  foldlM_invariant (fun _ _ _ midway stepped => midway.stepAt? stepped)
    (Midway.opening orderly native) turns

theorem mem_remaining {stepping started : List Thread} {thread : Thread}
    (mem : thread ∈ remaining stepping started) :
    thread ∈ stepping ∧ thread.isDone = false ∨ thread ∈ started := by
  rcases List.mem_append.mp mem with mem | mem
  · obtain ⟨isOld, kept⟩ := List.mem_filter.mp mem
    rw [Bool.and_eq_true, Bool.not_eq_true'] at kept
    exact .inl ⟨isOld, kept.1⟩
  · exact .inr mem

theorem Orderly.tick? (orderly : host.Orderly) (native : host.Native)
    (ticked : host.tick? foreign limits = some after) : after.Orderly ∧ after.Native := by
  obtain ⟨last, stepping, turns, rfl⟩ := tick?_cases ticked
  have midway := orderly.midway native turns
  have older := orderly.toLined.of_becomes midway.becomes
  refine ⟨⟨older.remaining midway.lined (Nat.zero_le _) midway.since_le, ?_⟩, midway.native⟩
  intro thread mem
  rcases mem_remaining mem with ⟨isOld, -⟩ | isNew
  · exact midway.fit thread isOld
  · exact (midway.unstepped thread isNew).consistent

/-- What every tick keeps is kept by ticks until no thread is left. -/
theorem runToIdle?_invariant {holds : Host → Prop}
    (kept : ∀ host after, holds host → host.tick? foreign limits = some after → holds after)
    {most ticks : Nat} (before : holds host)
    (ran : host.runToIdle? foreign limits most = some (after, ticks)) : holds after := by
  induction most generalizing host ticks with
  | zero =>
      obtain ⟨rfl, -⟩ := Prod.mk.inj (Option.some.inj ran)
      exact before
  | succ most ih =>
      unfold Host.runToIdle? at ran
      split at ran
      · obtain ⟨rfl, -⟩ := Prod.mk.inj (Option.some.inj ran)
        exact before
      · simp only [Option.bind_eq_bind, Option.bind_eq_some_iff] at ran
        obtain ⟨middle, ticked, ⟨last, count⟩, later, same⟩ := ran
        obtain ⟨rfl, -⟩ := Prod.mk.inj (Option.some.inj same)
        exact ih (kept host middle before ticked) later

theorem Orderly.runToIdle? {most ticks : Nat} (orderly : host.Orderly) (native : host.Native)
    (ran : host.runToIdle? foreign limits most = some (after, ticks)) :
    after.Orderly ∧ after.Native := by
  have kept : ∀ before after : Host, before.Orderly ∧ before.Native →
      before.tick? foreign limits = some after → after.Orderly ∧ after.Native :=
    fun _ _ holds => holds.1.tick? holds.2
  exact runToIdle?_invariant kept ⟨orderly, native⟩ ran

/-! ### Threads that are done -/

/-- A thread that is done after a tick was started in it, and ended before its first turn. -/
theorem Orderly.of_done (orderly : host.Orderly) (native : host.Native)
    (ticked : host.tick? foreign limits = some after) {thread : Thread} (mem : thread ∈ after.threads)
    (isDone : thread.isDone = true) :
    host.nextThread ≤ thread.id ∧
      thread = (Thread.start thread.id thread.target thread.topBlock).retire := by
  obtain ⟨last, stepping, turns, rfl⟩ := tick?_cases ticked
  have midway := orderly.midway native turns
  rcases mem_remaining mem with ⟨-, going⟩ | isNew
  · rw [isDone] at going
    cases going
  · refine ⟨(midway.lined.range thread isNew).1, ?_⟩
    refine (midway.unstepped thread isNew).resolve_left fun isStart => ?_
    rw [isStart] at isDone
    cases isDone

/-- A thread that is done before a tick is gone after it. -/
theorem Orderly.id_ne_of_done (orderly : host.Orderly) (native : host.Native)
    (ticked : host.tick? foreign limits = some after) {thread other : Thread}
    (mem : thread ∈ host.threads) (isDone : thread.isDone = true) (isOther : other ∈ after.threads) :
    other.id ≠ thread.id := by
  obtain ⟨last, stepping, turns, rfl⟩ := tick?_cases ticked
  have midway := orderly.midway native turns
  intro same
  rcases mem_remaining isOther with ⟨isOld, going⟩ | isNew
  · obtain ⟨earlier, isEarlier, becomes⟩ := exists_of_mem_right midway.becomes isOld
    obtain rfl := orderly.eq_of_id_eq isEarlier mem (becomes.id.symm.trans same)
    rw [becomes.done isDone] at going
    cases going
  · have older := orderly.range thread mem
    have newer := midway.lined.range other isNew
    omega

/-! ### Stop requests -/

/-- Without threads a tick does nothing but count, and read the clock. -/
theorem eq_of_tick?_of_nil (none : host.threads = [])
    (ticked : host.tick? foreign limits = some after) :
    after = { host.readClock with ticks := host.ticks + 1, tickStarted := host.readClock.now } := by
  obtain ⟨last, stepping, turns, rfl⟩ := tick?_cases ticked
  rw [none] at turns
  obtain ⟨rfl, rfl⟩ := Prod.mk.inj (Option.some.inj turns)
  rw [none]
  exact congrArg (fun threads => { host.readClock with
    ticks := host.ticks + 1, tickStarted := host.readClock.now, threads := threads }) none.symm

/-- With a thread the requests are carried out after the first turn. -/
theorem cleared_of_turns (native : host.Native) (listed : host.threads ≠ [])
    {state : Host × List Thread}
    (turns : (List.range host.threads.length).foldlM (Host.stepAt? foreign limits) host.opening =
      some state) : Cleared host.stops state := by
  obtain ⟨more, count⟩ := Nat.exists_eq_succ_of_ne_zero (mt List.length_eq_zero_iff.mp listed)
  rw [count, List.range_succ_eq_map, List.foldlM_cons, Option.bind_eq_bind,
    Option.bind_eq_some_iff] at turns
  obtain ⟨middle, first, rest⟩ := turns
  have inRange : 0 < (host.threads.map Thread.wake).length := by
    rw [List.length_map, count]
    exact Nat.succ_pos more
  have opened : host.opening.1.Native := native
  have cleared := cleared_of_stepAt? opened inRange first
  exact foldlM_invariant (fun _ _ _ cleared stepped => cleared.stepAt? stepped) cleared rest

/-- A tick with a thread leaves no stop request, and of the threads at its beginning none that a
request hits. -/
theorem Orderly.stops_of_tick? (orderly : host.Orderly) (native : host.Native)
    (listed : host.threads ≠ []) (ticked : host.tick? foreign limits = some after) :
    after.stops = [] ∧ ∀ stop ∈ host.stops, ∀ thread ∈ after.threads,
      StopRequest.hits thread stop = true → host.nextThread ≤ thread.id := by
  obtain ⟨last, stepping, turns, rfl⟩ := tick?_cases ticked
  have midway := orderly.midway native turns
  have cleared := cleared_of_turns native listed turns
  refine ⟨cleared.stops, fun stop isStop thread mem hit => ?_⟩
  rcases mem_remaining mem with ⟨isOld, going⟩ | isNew
  · rw [cleared.done thread isOld stop isStop hit] at going
    cases going
  · exact (midway.lined.range thread isNew).1

end

end Host

end StepCode
