import StepCode.Host.Load
import StepCode.Proofs.Host.Ticks

/-!
# Reachable hosts

Whatever is done to a host, its threads stay in order.  What a tick leaves undone is said as well: a
thread that is stopped in the tick that started it is listed once more, and without threads stop
requests are kept for later ones.
-/

namespace StepCode

/-! ## Events -/

/-- What is done to a host between ticks, or to run them. -/
inductive Event where
  | greenFlag
  | broadcast (message : String)
  | startHats (opcode : String) (field : Option (String × String))
  | tick (limits : Limits)
  | runToIdle (limits : Limits) (most : Nat)
  | stopAll
  | requestStop (stop : StopRequest)
  | setVariable (target : Nat) (name : String) (value : Value)
  | advanceClock (nanoseconds : Nat)

namespace Host

/-- The host after an event; nothing if a turn has no result. -/
def handle? (foreign : Foreign) (host : Host) : Event → Option Host
  | .greenFlag => some host.greenFlag.1
  | .broadcast message => some (host.broadcast message).1
  | .startHats opcode field => some (host.startHats opcode field).1
  | .tick limits => host.tick? foreign limits
  | .runToIdle limits most => (host.runToIdle? foreign limits most).map Prod.fst
  | .stopAll => some host.stopAll
  | .requestStop stop => some (host.requestStop stop)
  | .setVariable target name value => some (host.setVariable target name value)
  | .advanceClock nanoseconds => some (host.advanceClock nanoseconds)

/-- The hosts that a program comes to between ticks.  The only extension that is installed, if any, is
the one for compiled code. -/
inductive Reachable (foreign : Foreign) : Host → Prop
  | start (project : Project) (unsandboxed : Bool) (locale : String) (drift : List Nat) :
      Reachable foreign
        { Host.start project with unsandboxed := unsandboxed, locale := locale, drift := drift }
  | install {host installed : Host} {url : String} (before : Reachable foreign host)
      (done : host.install url = .ok installed) : Reachable foreign installed
  | handle {host after : Host} (event : Event) (before : Reachable foreign host)
      (done : host.handle? foreign event = some after) : Reachable foreign after

/-- Installing a document gives the host support and the extension that enters compiled code. -/
theorem install_eq {host installed : Host} {url : String}
    (done : host.install url = .ok installed) :
    ∃ bootstrap, installed = { host with
      support := some (.ofBootstrap bootstrap)
      extensions := host.extensions.insert supportExtension .support } := by
  unfold Host.install at done
  dsimp only at done
  split at done
  · cases done
  · split at done
    · cases done
    · obtain ⟨bootstrap, -, done⟩ := bind_eq_ok.mp done
      unfold Host.register at done
      dsimp only at done
      split at done
      · cases done
      · obtain rfl := Except.ok.inj done
        exact ⟨bootstrap, rfl⟩

/-- A loaded host has the targets of the program, with support for compiled code or without. -/
theorem load_cases {project : Project} {unsandboxed : Bool} {host : Host}
    (loaded : Host.load project unsandboxed = .ok host) :
    host = { Host.start project with unsandboxed := unsandboxed } ∨
      ∃ bootstrap, host = { Host.start project with
        unsandboxed := unsandboxed
        support := some (.ofBootstrap bootstrap)
        extensions := Table.empty.insert supportExtension .support } := by
  unfold Host.load at loaded
  dsimp only at loaded
  split at loaded
  next url _ => exact .inr (install_eq loaded)
  next => exact .inl (Except.ok.inj loaded).symm

theorem data_of_load {project : Project} {unsandboxed : Bool} {host : Host}
    (loaded : Host.load project unsandboxed = .ok host) :
    host.targets.map LiveTarget.data = project.targets := by
  have isTargets : host.targets = project.targets.map LiveTarget.start := by
    rcases load_cases loaded with rfl | ⟨bootstrap, rfl⟩
    · rfl
    · rfl
  rw [isTargets, List.map_map]
  exact List.map_id _

theorem Native.install {host installed : Host} {url : String} (native : host.Native)
    (done : host.install url = .ok installed) : installed.Native := by
  obtain ⟨bootstrap, rfl⟩ := install_eq done
  intro other info found
  rw [Table.get?_insert] at found
  split at found
  · cases found
  · exact native other info found

theorem Orderly.startThreads {host : Host} (orderly : host.Orderly) (scripts : List (Nat × String)) :
    (host.startThreads scripts).1.Orderly := by
  have starts := Starts.startThreads host scripts
  refine ⟨(starts.lined (Nat.zero_le _) orderly.toLined).2, fun thread mem => ?_⟩
  rcases starts.mem mem with before | isStart
  · exact orderly.consistent thread before
  · rw [isStart]
    exact Thread.consistent_start _ _ _

theorem Native.startThreads {host : Host} (native : host.Native) (scripts : List (Nat × String)) :
    (host.startThreads scripts).1.Native := by
  obtain ⟨threads, nextThread, same⟩ := host.startThreads_eq scripts
  rw [same]
  exact native

/-- Every event keeps the threads in order. -/
theorem Orderly.handle? {foreign : Foreign} {host after : Host} {event : Event}
    (orderly : host.Orderly) (native : host.Native)
    (done : host.handle? foreign event = some after) : after.Orderly ∧ after.Native := by
  cases event with
  | greenFlag =>
      obtain rfl := Option.some.inj done
      exact ⟨orderly.startThreads _, native.startThreads _⟩
  | broadcast message =>
      obtain rfl := Option.some.inj done
      exact ⟨orderly.startThreads _, native.startThreads _⟩
  | startHats opcode field =>
      obtain rfl := Option.some.inj done
      exact ⟨orderly.startThreads _, native.startThreads _⟩
  | tick limits => exact orderly.tick? native done
  | runToIdle limits most =>
      obtain ⟨⟨last, ticks⟩, ran, rfl⟩ := Option.map_eq_some_iff.mp done
      exact orderly.runToIdle? native ran
  | stopAll =>
      obtain rfl := Option.some.inj done
      exact ⟨⟨.nil, by simp [stopAll]⟩, native⟩
  | requestStop stop =>
      obtain rfl := Option.some.inj done
      exact ⟨⟨orderly.toLined, orderly.consistent⟩, native⟩
  | setVariable target name value =>
      obtain rfl := Option.some.inj done
      exact ⟨⟨orderly.toLined, orderly.consistent⟩, native⟩
  | advanceClock nanoseconds =>
      obtain rfl := Option.some.inj done
      exact ⟨⟨orderly.toLined, orderly.consistent⟩, native⟩

theorem Reachable.invariant {foreign : Foreign} {host : Host} (reachable : host.Reachable foreign) :
    host.Orderly ∧ host.Native := by
  induction reachable with
  | start project unsandboxed locale drift =>
      refine ⟨⟨.nil, by simp [Host.start]⟩, fun id info found => ?_⟩
      cases found
  | install _ done ih =>
      refine ⟨?_, ih.2.install done⟩
      obtain ⟨bootstrap, rfl⟩ := install_eq done
      exact ⟨ih.1.toLined, ih.1.consistent⟩
  | handle event _ done ih => exact ih.1.handle? ih.2 done

end Host

/-! ## Threads in order -/

/-- In every host that a program comes to, ids increase along the list of threads and lie below the
next one, no two threads run the same script, and a thread is done exactly if its stack is empty, and
then has no compiled code. -/
theorem reachable_threads_are_in_order {foreign : Foreign} {host : Host}
    (reachable : host.Reachable foreign) : host.Orderly :=
  reachable.invariant.1

/-- Foreign blocks that do nothing. -/
def idleForeign : Foreign := fun _ _ _ => return .empty

/-- A flag starts a script that sends a message, and another that stops all others of its target and
then loops.  A third script receives the message. -/
def relayTarget : Target where
  isStage := true
  name := "Stage"
  vars := .empty
  blocks := ⟨[
    ("send", .block { Block.bare "event_whenflagclicked" with next := some "m", topLevel := true }),
    ("m", .block { Block.bare "event_broadcast" with
      parent := some "send"
      inputs := ⟨[("BROADCAST_INPUT", .array [.int 1, .array [.int 11, .text "go", .text "go"]])]⟩ }),
    ("stop", .block { Block.bare "event_whenflagclicked" with next := some "s", topLevel := true }),
    ("s", .block { Block.bare "control_stop" with
      parent := some "stop"
      next := some "w"
      fields := ⟨[("STOP_OPTION", .array [.text "other scripts in sprite", .null])]⟩ }),
    ("w", .block { Block.bare "control_forever" with parent := some "s" }),
    ("receive", .block { Block.bare "event_whenbroadcastreceived" with
      topLevel := true
      fields := ⟨[("BROADCAST_OPTION", .array [.text "go", .text "go"])]⟩ })]⟩
  comments := .empty
  extra := .empty

def relayProgram : Project := ⟨[relayTarget], [], .empty, .empty⟩

/-- The flag has been clicked. -/
def relayStart : Host := (Host.start relayProgram).greenFlag.1

theorem relayStart_reachable : relayStart.Reachable idleForeign :=
  .handle .greenFlag (.start relayProgram false "en" []) rfl

/-- The receiver is started and stopped in one tick, and is listed after it. -/
theorem relayStart_tick : ∃ after thread, relayStart.tick? idleForeign ⟨10, 2⟩ = some after ∧
    after.threads.map Thread.id = [1, 2] ∧ thread ∈ after.threads ∧ thread.isDone = true := by
  have left : (relayStart.tick? idleForeign ⟨10, 2⟩).map (fun after =>
      (after.threads.map Thread.id, after.threads.any Thread.isDone)) = some ([1, 2], true) := by
    decide +kernel
  obtain ⟨after, ticked, same⟩ := Option.map_eq_some_iff.mp left
  obtain ⟨ids, anyDone⟩ := Prod.mk.inj same
  obtain ⟨thread, mem, isDone⟩ := List.any_eq_true.mp anyDone
  exact ⟨after, thread, ticked, ids, mem, isDone⟩

theorem relay_threads_are_in_order : ∃ host : Host, host.Reachable idleForeign ∧
    host.threads.map Thread.id = [1, 2] ∧ host.Orderly := by
  obtain ⟨after, thread, ticked, ids, -, -⟩ := relayStart_tick
  have reachable : after.Reachable idleForeign := .handle (.tick ⟨10, 2⟩) relayStart_reachable ticked
  exact ⟨after, reachable, ids, reachable_threads_are_in_order reachable⟩

/-! ## Threads that are done -/

/-- A tick removes every thread that ends in it, but for those that it started itself.  A thread that
is listed as done was started in the tick and stopped before its first turn; the next tick removes
it. -/
theorem done_threads_go_with_the_next_tick {foreign : Foreign} {limits : Limits} {host after : Host}
    (reachable : host.Reachable foreign) (ticked : host.tick? foreign limits = some after) :
    ∀ thread ∈ after.threads, thread.isDone = true →
      host.nextThread ≤ thread.id ∧
      thread = (Thread.start thread.id thread.target thread.topBlock).retire ∧
      ∀ limits later, after.tick? foreign limits = some later →
        ∀ other ∈ later.threads, other.id ≠ thread.id := by
  obtain ⟨orderly, native⟩ := reachable.invariant
  obtain ⟨orderly', native'⟩ := orderly.tick? native ticked
  intro thread mem isDone
  obtain ⟨isNew, isRetired⟩ := orderly.of_done native ticked mem isDone
  refine ⟨isNew, isRetired, fun limits later next other isOther => ?_⟩
  exact orderly'.id_ne_of_done native' next mem isDone isOther

/-- The receiver of the relay is such a thread. -/
theorem relay_receiver_goes_with_the_next_tick :
    ∃ after thread, relayStart.tick? idleForeign ⟨10, 2⟩ = some after ∧ thread ∈ after.threads ∧
      thread.isDone = true ∧ relayStart.nextThread ≤ thread.id ∧
      ∀ limits later, after.tick? idleForeign limits = some later →
        ∀ other ∈ later.threads, other.id ≠ thread.id := by
  obtain ⟨after, thread, ticked, -, mem, isDone⟩ := relayStart_tick
  obtain ⟨isNew, -, gone⟩ :=
    done_threads_go_with_the_next_tick relayStart_reachable ticked thread mem isDone
  exact ⟨after, thread, ticked, mem, isDone, isNew, gone⟩

/-- Not every tick removes all threads that are done. -/
theorem relay_receiver_outlasts_the_tick : ¬ ∀ (foreign : Foreign) (limits : Limits)
    (host after : Host), host.Reachable foreign → host.tick? foreign limits = some after →
      ∀ thread ∈ after.threads, thread.isDone = false := by
  intro removed
  obtain ⟨after, thread, ticked, -, mem, isDone⟩ := relayStart_tick
  have going := removed idleForeign _ relayStart after relayStart_reachable ticked thread mem
  rw [isDone] at going
  cases going

/-! ## Stop requests -/

/-- A tick carries out the stop requests that wait for it and leaves none, if any thread is listed:
of the threads that a request hits, only those are left that the tick started.  With no thread, the
tick does nothing but read the clock, and the requests wait for whatever is started later. -/
theorem stop_requests_outlive_ticks_without_threads {foreign : Foreign} {limits : Limits}
    {host after : Host} (reachable : host.Reachable foreign)
    (ticked : host.tick? foreign limits = some after) :
    (host.threads ≠ [] → after.stops = [] ∧ ∀ stop ∈ host.stops, ∀ thread ∈ after.threads,
      StopRequest.hits thread stop = true → host.nextThread ≤ thread.id) ∧
    (host.threads = [] →
      after = { host.readClock with
        ticks := host.ticks + 1, tickStarted := host.readClock.now }) := by
  obtain ⟨orderly, native⟩ := reachable.invariant
  exact ⟨fun listed => orderly.stops_of_tick? native listed ticked,
    fun none => Host.eq_of_tick?_of_nil none ticked⟩

/-- A flag starts a script that loops for ever. -/
def loopTarget : Target where
  isStage := true
  name := "Stage"
  vars := .empty
  blocks := ⟨[
    ("h", .block { Block.bare "event_whenflagclicked" with next := some "w", topLevel := true }),
    ("w", .block { Block.bare "control_forever" with parent := some "h" })]⟩
  comments := .empty
  extra := .empty

def loopProgram : Project := ⟨[loopTarget], [], .empty, .empty⟩

/-- Everything is asked to stop while nothing runs. -/
def loopStopped : Host := (Host.start loopProgram).requestStop .all

theorem loopStopped_reachable : loopStopped.Reachable idleForeign :=
  .handle (.requestStop .all) (.start loopProgram false "en" []) rfl

/-- The script that is started after the tick is stopped by the request before it. -/
theorem loopStopped_tick : ∃ idle after, loopStopped.tick? idleForeign ⟨10, 2⟩ = some idle ∧
    idle.stops = [.all] ∧ idle.greenFlag.1.stops = [.all] ∧
    idle.greenFlag.1.threads.map Thread.id = [0] ∧
    idle.greenFlag.1.tick? idleForeign ⟨10, 2⟩ = some after ∧ after.threads.isEmpty = true := by
  have left : (loopStopped.tick? idleForeign ⟨10, 2⟩).map (fun idle =>
      (idle.stops, idle.greenFlag.1.stops, idle.greenFlag.1.threads.map Thread.id,
        (idle.greenFlag.1.tick? idleForeign ⟨10, 2⟩).map fun after => after.threads.isEmpty)) =
      some ([.all], [.all], [0], some true) := rfl
  obtain ⟨idle, ticked, same⟩ := Option.map_eq_some_iff.mp left
  obtain ⟨stops, same⟩ := Prod.mk.inj same
  obtain ⟨pending, same⟩ := Prod.mk.inj same
  obtain ⟨ids, same⟩ := Prod.mk.inj same
  obtain ⟨after, later, empty⟩ := Option.map_eq_some_iff.mp same
  exact ⟨idle, after, ticked, stops, pending, ids, later, empty⟩

/-- The request waits through the tick without threads, and is carried out in the next one. -/
theorem loop_request_carried_out_late : ∃ idle after,
    loopStopped.tick? idleForeign ⟨10, 2⟩ = some idle ∧ idle.stops = loopStopped.stops ∧
    idle.greenFlag.1.tick? idleForeign ⟨10, 2⟩ = some after ∧ after.stops = [] ∧
    ∀ thread ∈ after.threads, idle.greenFlag.1.nextThread ≤ thread.id := by
  obtain ⟨idle, after, ticked, stops, pending, ids, later, -⟩ := loopStopped_tick
  have kept := (stop_requests_outlive_ticks_without_threads loopStopped_reachable ticked).2 rfl
  have reachable : idle.greenFlag.1.Reachable idleForeign :=
    .handle .greenFlag (.handle (.tick ⟨10, 2⟩) loopStopped_reachable ticked) rfl
  have listed : idle.greenFlag.1.threads ≠ [] := by
    intro isNil
    rw [isNil] at ids
    cases ids
  have isPending : .all ∈ idle.greenFlag.1.stops := by rw [pending]; exact List.mem_singleton.mpr rfl
  obtain ⟨none, hit⟩ := (stop_requests_outlive_ticks_without_threads reachable later).1 listed
  exact ⟨idle, after, ticked, by rw [kept]; rfl, later, none,
    fun thread mem => hit .all isPending thread mem rfl⟩

/-- Not every tick leaves the host without stop requests, and what is left stops other scripts. -/
theorem loop_request_outlives_the_tick :
    (¬ ∀ (foreign : Foreign) (limits : Limits) (host after : Host), host.Reachable foreign →
      host.tick? foreign limits = some after → after.stops = []) ∧
    ∃ idle after, loopStopped.tick? idleForeign ⟨10, 2⟩ = some idle ∧
      idle.greenFlag.1.threads.map Thread.id = [0] ∧
      idle.greenFlag.1.tick? idleForeign ⟨10, 2⟩ = some after ∧ after.threads = [] := by
  obtain ⟨idle, after, ticked, stops, -, ids, later, empty⟩ := loopStopped_tick
  refine ⟨fun drained => ?_, idle, after, ticked, ids, later, List.isEmpty_iff.mp empty⟩
  have none := drained idleForeign _ loopStopped idle loopStopped_reachable ticked
  rw [stops] at none
  cases none

end StepCode
