import StepCode.Proofs.Host.Reachable

/-!
# Scripts that are started anew

An id is given to one thread only, so a thread that is off the list is off for good.  When the event
that starts a script anew is over, the old thread is off the list.  In the middle of a tick it is not:
there the old thread keeps its place, and has its turn if that place is still to come.
-/

namespace StepCode

namespace Host

/-! ## What becomes of the list -/

/-- Every thread that is listed later was listed before, or has an id that was not given yet. -/
structure Precedes (before after : Host) : Prop where
  nextThread : before.nextThread ≤ after.nextThread
  threads : ∀ thread ∈ after.threads,
    before.nextThread ≤ thread.id ∨ ∃ earlier ∈ before.threads, earlier.Becomes thread

namespace Precedes

variable {first second third : Host}

theorem of_subset (nextThread : second.nextThread = first.nextThread)
    (threads : second.threads ⊆ first.threads) : first.Precedes second :=
  ⟨Nat.le_of_eq nextThread.symm, fun thread mem => .inr ⟨thread, threads mem, .refl thread⟩⟩

theorem refl (host : Host) : host.Precedes host := of_subset rfl (List.Subset.refl _)

theorem trans (one : first.Precedes second) (other : second.Precedes third) :
    first.Precedes third := by
  refine ⟨Nat.le_trans one.nextThread other.nextThread, fun thread mem => ?_⟩
  rcases other.threads thread mem with isNew | ⟨middle, isMiddle, later⟩
  · exact .inl (Nat.le_trans one.nextThread isNew)
  · rcases one.threads middle isMiddle with isNew | ⟨earlier, isEarlier, becomes⟩
    · exact .inl (later.id ▸ isNew)
    · exact .inr ⟨earlier, isEarlier, becomes.trans later⟩

theorem startThread (host : Host) (target : Nat) (topBlock : String) :
    host.Precedes (host.startThread target topBlock) := by
  refine ⟨Nat.le_succ _, fun thread mem => ?_⟩
  rcases List.mem_append.mp mem with kept | started
  · exact .inr ⟨thread, List.mem_of_mem_filter kept, .refl thread⟩
  · obtain rfl := List.mem_singleton.mp started
    exact .inl (Nat.le_refl _)

theorem startThreads (host : Host) (scripts : List (Nat × String)) :
    host.Precedes (host.startThreads scripts).1 := by
  induction scripts generalizing host with
  | nil => exact refl host
  | cons script rest ih => exact (startThread host script.1 script.2).trans (ih _)

section

variable {foreign : Foreign} {limits : Limits} {host after : Host}

theorem tick? (orderly : host.Orderly) (native : host.Native)
    (ticked : host.tick? foreign limits = some after) : host.Precedes after := by
  obtain ⟨last, stepping, turns, rfl⟩ := tick?_cases ticked
  have midway := orderly.midway native turns
  refine ⟨midway.since_le, fun thread mem => ?_⟩
  rcases mem_remaining mem with ⟨isOld, -⟩ | isNew
  · exact .inr (exists_of_mem_right midway.becomes isOld)
  · exact .inl (midway.lined.range thread isNew).1

theorem runToIdle? {most ticks : Nat} (orderly : host.Orderly) (native : host.Native)
    (ran : host.runToIdle? foreign limits most = some (after, ticks)) : host.Precedes after := by
  have kept : ∀ middle last : Host, (middle.Orderly ∧ middle.Native) ∧ host.Precedes middle →
      middle.tick? foreign limits = some last → (last.Orderly ∧ last.Native) ∧ host.Precedes last := by
    rintro middle last ⟨⟨orderly, native⟩, precedes⟩ ticked
    exact ⟨orderly.tick? native ticked, precedes.trans (tick? orderly native ticked)⟩
  exact (runToIdle?_invariant kept ⟨⟨orderly, native⟩, refl host⟩ ran).2

theorem handle? {event : Event} (orderly : host.Orderly) (native : host.Native)
    (done : host.handle? foreign event = some after) : host.Precedes after := by
  cases event with
  | greenFlag =>
      obtain rfl := Option.some.inj done
      exact startThreads host _
  | broadcast message =>
      obtain rfl := Option.some.inj done
      exact startThreads host _
  | startHats opcode field =>
      obtain rfl := Option.some.inj done
      exact startThreads host _
  | tick limits => exact tick? orderly native done
  | runToIdle limits most =>
      obtain ⟨⟨last, ticks⟩, ran, rfl⟩ := Option.map_eq_some_iff.mp done
      exact runToIdle? orderly native ran
  | stopAll =>
      obtain rfl := Option.some.inj done
      exact of_subset rfl (List.nil_subset _)
  | requestStop stop | setVariable target name value | advanceClock nanoseconds =>
      obtain rfl := Option.some.inj done
      exact of_subset rfl (List.Subset.refl _)

theorem install {installed : Host} {url : String} (done : host.install url = .ok installed) :
    host.Precedes installed := by
  obtain ⟨bootstrap, rfl⟩ := install_eq done
  exact of_subset rfl (List.Subset.refl _)

end

end Precedes

/-! ## Turns that a thread gets -/

/-- The tick as it stands when the first threads, `count` of them, have had their turns. -/
def turns? (foreign : Foreign) (limits : Limits) (host : Host) (count : Nat) :
    Option (Host × List Thread) :=
  (List.range count).foldlM (stepAt? foreign limits) host.opening

/-- In a tick of the host, the thread with this id gets the turn at `place`. -/
def GivesTurn (foreign : Foreign) (limits : Limits) (host : Host) (place id : Nat) : Prop :=
  ∃ current stepping thread, host.turns? foreign limits place = some (current, stepping) ∧
    stepping[place]? = some thread ∧ thread.isDone = false ∧ thread.id = id

section

variable {foreign : Foreign} {limits : Limits} {host after : Host} {place id : Nat}

/-- Only a thread that is listed gets a turn, and only at its place. -/
theorem Orderly.listed_of_givesTurn (orderly : host.Orderly) (native : host.Native)
    (given : host.GivesTurn foreign limits place id) :
    ∃ thread, host.threads[place]? = some thread ∧ thread.id = id := by
  obtain ⟨current, stepping, thread, turns, found, -, rfl⟩ := given
  have midway := orderly.midway native turns
  obtain ⟨earlier, isEarlier, becomes⟩ := exists_of_getElem?_right midway.becomes found
  exact ⟨earlier, isEarlier, becomes.id.symm⟩

theorem Orderly.place_of_givesTurn (orderly : host.Orderly) (native : host.Native) {own : Nat}
    {thread : Thread} (found : host.threads[own]? = some thread)
    (given : host.GivesTurn foreign limits place thread.id) : place = own := by
  obtain ⟨other, isOther, same⟩ := orderly.listed_of_givesTurn native given
  have nodup : (host.threads.map Thread.id).Nodup :=
    (List.pairwise_map.mpr orderly.ids).imp fun less => Nat.ne_of_lt less
  have inRange : place < (host.threads.map Thread.id).length := by
    rw [List.length_map]
    exact (List.getElem?_eq_some_iff.mp isOther).1
  refine (List.getElem?_inj inRange nodup).mp ?_
  rw [List.getElem?_map, List.getElem?_map, isOther, found, Option.map_some, Option.map_some, same]

/-- The hosts that a host comes to. -/
inductive ComesTo (foreign : Foreign) (host : Host) : Host → Prop
  | now : ComesTo foreign host host
  | install {middle installed : Host} {url : String} (before : ComesTo foreign host middle)
      (done : middle.install url = .ok installed) : ComesTo foreign host installed
  | handle {middle after : Host} (event : Event) (before : ComesTo foreign host middle)
      (done : middle.handle? foreign event = some after) : ComesTo foreign host after

theorem Reachable.comesTo (reachable : host.Reachable foreign) (later : host.ComesTo foreign after) :
    after.Reachable foreign := by
  induction later with
  | now => exact reachable
  | install _ done ih => exact .install ih done
  | handle event _ done ih => exact .handle event ih done

/-- The id has been given, and no thread has it any more. -/
structure Gone (host : Host) (id : Nat) : Prop where
  given : id < host.nextThread
  unlisted : ∀ thread ∈ host.threads, thread.id ≠ id

theorem Gone.of_precedes (gone : host.Gone id) (precedes : host.Precedes after) : after.Gone id := by
  refine ⟨Nat.lt_of_lt_of_le gone.given precedes.nextThread, fun thread mem => ?_⟩
  rcases precedes.threads thread mem with isNew | ⟨earlier, isEarlier, becomes⟩
  · have := gone.given
    omega
  · rw [becomes.id]
    exact gone.unlisted earlier isEarlier

theorem Gone.comesTo (reachable : host.Reachable foreign) (gone : host.Gone id)
    (later : host.ComesTo foreign after) : after.Gone id := by
  induction later with
  | now => exact gone
  | install _ done ih => exact ih.of_precedes (.install done)
  | handle event before done ih =>
      obtain ⟨orderly, native⟩ := (reachable.comesTo before).invariant
      exact ih.of_precedes (.handle? orderly native done)

/-- A thread whose script has been started anew by an event is gone after it. -/
theorem Orderly.gone_of_restart {event : Event} (orderly : host.Orderly) (native : host.Native)
    (handled : host.handle? foreign event = some after) {old new : Thread} (wasListed : old ∈ host.threads)
    (isListed : new ∈ after.threads) (isNew : host.nextThread ≤ new.id)
    (same : new.sameScript old = true) : after.Gone old.id := by
  have precedes := Precedes.handle? orderly native handled
  have given := (orderly.range old wasListed).2
  refine ⟨Nat.lt_of_lt_of_le given precedes.nextThread, fun thread mem isOld => ?_⟩
  have becomes : old.Becomes thread := by
    rcases precedes.threads thread mem with fresh | ⟨earlier, isEarlier, becomes⟩
    · omega
    · obtain rfl := orderly.eq_of_id_eq isEarlier wasListed (becomes.id.symm.trans isOld)
      exact becomes
  have sameScript : new.sameScript thread = true := by
    rwa [(Thread.Becomes.refl new).sameScript becomes]
  -- no two threads run the same script after the event
  obtain rfl := (orderly.handle? native handled).1.eq_of_sameScript isListed mem sameScript
  omega

end

end Host

/-! ## Scripts that are started anew -/

/-- When an event has started a script anew, the old thread never gets a turn again.  If the event is a
tick, the old thread gets no turn in it but the one at its place in the list, so a thread that comes
behind it there stops it at once. -/
theorem restarted_threads_are_over_with_the_event {foreign : Foreign} {host after : Host} {event : Event}
    (reachable : host.Reachable foreign) (handled : host.handle? foreign event = some after)
    {old new : Thread} (wasListed : old ∈ host.threads) (isListed : new ∈ after.threads)
    (isNew : host.nextThread ≤ new.id) (same : new.sameScript old = true) :
    (∀ later, after.ComesTo foreign later → (∀ thread ∈ later.threads, thread.id ≠ old.id) ∧
      ∀ limits place, ¬ later.GivesTurn foreign limits place old.id) ∧
    ∀ limits own place, host.threads[own]? = some old →
      host.GivesTurn foreign limits place old.id → place = own := by
  obtain ⟨orderly, native⟩ := reachable.invariant
  have isReachable : after.Reachable foreign := .handle event reachable handled
  have gone := orderly.gone_of_restart native handled wasListed isListed isNew same
  refine ⟨fun later comes => ?_, fun limits own place found => orderly.place_of_givesTurn native found⟩
  have unlisted := (gone.comesTo isReachable comes).unlisted
  refine ⟨unlisted, fun limits place given => ?_⟩
  obtain ⟨laterOrderly, laterNative⟩ := (isReachable.comesTo comes).invariant
  obtain ⟨thread, found, isOld⟩ := laterOrderly.listed_of_givesTurn laterNative given
  exact unlisted thread (List.mem_of_getElem? found) isOld

/-- A flag starts a script that sends a message, and the receiver of the message speaks. -/
def echoTarget : Target where
  isStage := true
  name := "Stage"
  vars := .empty
  blocks := ⟨[
    ("send", .block { Block.bare "event_whenflagclicked" with next := some "m", topLevel := true }),
    ("m", .block { Block.bare "event_broadcast" with
      parent := some "send"
      inputs := ⟨[("BROADCAST_INPUT", .array [.int 1, .array [.int 11, .text "go", .text "go"]])]⟩ }),
    ("receive", .block { Block.bare "event_whenbroadcastreceived" with
      next := some "s"
      topLevel := true
      fields := ⟨[("BROADCAST_OPTION", .array [.text "go", .text "go"])]⟩ }),
    ("s", .block { Block.bare "looks_say" with
      parent := some "receive"
      inputs := ⟨[("MESSAGE", .array [.int 1, .array [.int 10, .text "heard"]])]⟩ })]⟩
  comments := .empty
  extra := .empty

def echoProgram : Project := ⟨[echoTarget], [], .empty, .empty⟩

/-- The sender has been started, and the receiver behind it. -/
def echoStart : Host := ((Host.start echoProgram).greenFlag.1.broadcast "go").1

theorem echoStart_reachable : echoStart.Reachable idleForeign :=
  .handle (.broadcast "go") (.handle .greenFlag (.start echoProgram false "en" []) rfl) rfl

/-- What has been said on all targets. -/
def Host.speech (host : Host) : List String := host.targets.flatMap LiveTarget.said

/-- The sender has its turn first, and starts the receiver anew; the old receiver speaks all the same. -/
theorem echo_is_over_with_the_tick :
    ∃ after old new, echoStart.Reachable idleForeign ∧
      echoStart.handle? idleForeign (.tick ⟨10, 2⟩) = some after ∧
      old ∈ echoStart.threads ∧ new ∈ after.threads ∧ new.sameScript old = true ∧
      after.speech = ["heard"] ∧ ∀ later, after.ComesTo idleForeign later →
        ∀ thread ∈ later.threads, thread.id ≠ old.id := by
  refine ⟨_, Thread.start 1 0 "receive", Thread.start 2 0 "receive", echoStart_reachable, rfl,
    List.mem_cons_of_mem _ List.mem_cons_self, List.mem_cons_of_mem _ List.mem_cons_self, rfl, rfl, ?_⟩
  intro later comes
  have handled : echoStart.handle? idleForeign (.tick ⟨10, 2⟩) = some _ := rfl
  exact ((restarted_threads_are_over_with_the_event echoStart_reachable handled
    (List.mem_cons_of_mem _ List.mem_cons_self) (List.mem_cons_of_mem _ List.mem_cons_self)
    (Nat.le_refl 2) rfl).1 later comes).1

/-- A thread whose script is started anew before its turn in the tick can still act in that turn. -/
theorem restarted_threads_speak_on :
    ¬ ∀ (foreign : Foreign) (host : Host) (limits : Limits) (count place : Nat)
        (current before after : Host) (stepping listed next : List Thread) (old new : Thread),
      host.Reachable foreign →
      host.turns? foreign limits count = some (current, stepping) →
      stepping[place]? = some old → count ≤ place → new ∈ current.threads →
      new.sameScript old = true →
      host.turns? foreign limits place = some (before, listed) →
      host.turns? foreign limits (place + 1) = some (after, next) →
      after.speech = before.speech := by
  intro silent
  have heard := silent idleForeign echoStart ⟨10, 2⟩ 1 1 _ _ _ _ _ _ (Thread.start 1 0 "receive")
    (Thread.start 2 0 "receive") echoStart_reachable rfl rfl (Nat.le_refl 1) List.mem_cons_self rfl
    rfl rfl
  exact absurd heard (List.cons_ne_nil "heard" [])

end StepCode
