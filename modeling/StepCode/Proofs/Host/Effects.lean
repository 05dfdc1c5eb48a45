import StepCode.Proofs.Operation.Needs
import StepCode.Proofs.Routine.Suspending

/-!
# Effects on the threads of a host

Whatever a thread does at its turn, little happens to the list of threads: scripts are started, and
stop requests are added.  The thread itself keeps its place and its script, and as long as not
everything is about to be stopped, it can go on.
-/

namespace StepCode

/-! ## Started scripts -/

/-- All that happens to the list of threads is that scripts are started, one after the other. -/
inductive Host.Starts (host : Host) : Host → Prop
  | none {after : Host} (threads : after.threads = host.threads)
      (nextThread : after.nextThread = host.nextThread) : Starts host after
  | start {middle after : Host} (target : Nat) (topBlock : String) (earlier : Starts host middle)
      (threads : after.threads = (middle.startThread target topBlock).threads)
      (nextThread : after.nextThread = middle.nextThread + 1) : Starts host after

/-- Starting scripts changes nothing but the threads and their numbering. -/
theorem Host.startThreads_eq (host : Host) (scripts : List (Nat × String)) :
    ∃ threads nextThread,
      (host.startThreads scripts).1 = { host with threads := threads, nextThread := nextThread } := by
  induction scripts generalizing host with
  | nil => exact ⟨_, _, rfl⟩
  | cons script rest ih =>
      obtain ⟨threads, nextThread, later⟩ := ih (host.startThread script.1 script.2)
      exact ⟨threads, nextThread, later⟩

namespace Host.Starts

variable {first second third : Host}

theorem trans (one : first.Starts second) (other : second.Starts third) : first.Starts third := by
  induction other with
  | none threads nextThread =>
      cases one with
      | none threads₁ nextThread₁ =>
          exact .none (threads.trans threads₁) (nextThread.trans nextThread₁)
      | start target topBlock earlier threads₁ nextThread₁ =>
          exact .start target topBlock earlier (threads.trans threads₁)
            (nextThread.trans nextThread₁)
  | start target topBlock _ threads nextThread ih =>
      exact .start target topBlock ih threads nextThread

theorem startThreads (host : Host) (scripts : List (Nat × String)) :
    host.Starts (host.startThreads scripts).1 := by
  induction scripts generalizing host with
  | nil => exact .none rfl rfl
  | cons script rest ih =>
      have first : host.Starts (host.startThread script.1 script.2) :=
        .start script.1 script.2 (.none rfl rfl) rfl rfl
      exact first.trans (ih _)

end Host.Starts

/-! ## Turns -/

/-- The only extension is the one for compiled code. -/
def Host.Native (host : Host) : Prop :=
  ∀ id info, host.extensions.get? id ≠ some (.foreign info)

theorem Thread.isDone_iff {thread : Thread} : thread.isDone = true ↔ thread.status = .done :=
  beq_iff_eq

/-- The calls of compiled code that takes the place of the script have made each other. -/
def Thread.Coded (thread : Thread) : Prop :=
  ∀ sequence, thread.compiled = some sequence → Lineal sequence.calls

namespace Turn

/-- The thread can go on, or else everything is about to be stopped.  A reporter that stops everything
ends the thread while its block is still to run, and the block may give the thread a new status. -/
def Live (turn : Turn) : Prop :=
  (turn.thread.isDone = false ∧ turn.thread.frames ≠ []) ∨ .all ∈ turn.host.stops

/-- What stays as it is from one moment of a turn to a later one. -/
structure Passes (before after : Turn) : Prop where
  id : after.thread.id = before.thread.id
  target : after.thread.target = before.thread.target
  topBlock : after.thread.topBlock = before.thread.topBlock
  data : after.host.targets.map LiveTarget.data = before.host.targets.map LiveTarget.data
  extensions : after.host.extensions = before.host.extensions
  stops : before.host.stops ⊆ after.host.stops
  starts : before.host.Starts after.host
  coded : before.thread.Coded → after.thread.Coded

/-- A thread that could go on before still can, and nothing has failed. -/
structure Leads (before after : Turn) : Prop extends Passes before after where
  errors : after.host.errors = before.host.errors
  live : before.Live → after.Live

variable {first second third : Turn}

theorem Passes.refl (turn : Turn) : turn.Passes turn :=
  ⟨rfl, rfl, rfl, rfl, rfl, List.Subset.refl _, .none rfl rfl, fun coded => coded⟩

theorem Passes.trans (one : first.Passes second) (other : second.Passes third) :
    first.Passes third where
  id := other.id.trans one.id
  target := other.target.trans one.target
  topBlock := other.topBlock.trans one.topBlock
  data := other.data.trans one.data
  extensions := other.extensions.trans one.extensions
  stops := List.Subset.trans one.stops other.stops
  starts := one.starts.trans other.starts
  coded := fun coded => other.coded (one.coded coded)

theorem Passes.native (passes : first.Passes second) (native : first.host.Native) :
    second.host.Native := by
  unfold Host.Native
  rw [passes.extensions]
  exact native

namespace Leads

theorem refl (turn : Turn) : turn.Leads turn := ⟨.refl turn, rfl, fun live => live⟩

theorem trans (one : first.Leads second) (other : second.Leads third) : first.Leads third where
  toPasses := one.toPasses.trans other.toPasses
  errors := other.errors.trans one.errors
  live := fun live => other.live (one.live live)

/-- A change to the host that may start scripts, and leaves its program, its extensions, its stop
requests and its errors as they are. -/
theorem of_host {host : Host} (turn : Turn)
    (data : host.targets.map LiveTarget.data = turn.host.targets.map LiveTarget.data)
    (extensions : host.extensions = turn.host.extensions)
    (stops : host.stops = turn.host.stops) (errors : host.errors = turn.host.errors)
    (starts : turn.host.Starts host) : turn.Leads ⟨host, turn.thread⟩ where
  id := rfl
  target := rfl
  topBlock := rfl
  data := data
  extensions := extensions
  stops := by rw [stops]; exact List.Subset.refl _
  starts := starts
  coded := fun coded => coded
  errors := errors
  live := by
    unfold Live
    rw [stops]
    exact fun live => live

theorem readClock (turn : Turn) : turn.Leads turn.readClock :=
  of_host turn rfl rfl rfl rfl (.none rfl rfl)

theorem setVariable (turn : Turn) (name : String) (value : Value) :
    turn.Leads ⟨turn.host.setVariable turn.thread.target name value, turn.thread⟩ :=
  of_host turn (turn.host.data_setVariable _ _ _) rfl rfl rfl (.none rfl rfl)

theorem say (turn : Turn) (message : String) :
    turn.Leads ⟨turn.host.say turn.thread.target message, turn.thread⟩ :=
  of_host turn (turn.host.data_say _ _) rfl rfl rfl (.none rfl rfl)

theorem startThreads (turn : Turn) (scripts : List (Nat × String)) :
    turn.Leads ⟨(turn.host.startThreads scripts).1, turn.thread⟩ := by
  have started := Host.Starts.startThreads turn.host scripts
  obtain ⟨threads, nextThread, same⟩ := turn.host.startThreads_eq scripts
  rw [same] at started ⊢
  exact of_host turn rfl rfl rfl rfl started

theorem requestStop (turn : Turn) (stop : StopRequest) :
    turn.Leads ⟨turn.host.requestStop stop, turn.thread⟩ where
  toPasses := ⟨rfl, rfl, rfl, rfl, rfl, List.subset_append_left _ _, .none rfl rfl, fun coded => coded⟩
  errors := rfl
  live := Or.imp id fun pending => List.mem_append_left _ pending

/-- The thread of a turn is changed, and neither ends nor loses its frames. -/
theorem of_thread {thread : Thread} (turn : Turn) (id : thread.id = turn.thread.id)
    (target : thread.target = turn.thread.target)
    (topBlock : thread.topBlock = turn.thread.topBlock)
    (coded : turn.thread.Coded → thread.Coded)
    (goesOn : turn.thread.isDone = false → turn.thread.frames ≠ [] →
      thread.isDone = false ∧ thread.frames ≠ []) : turn.Leads ⟨turn.host, thread⟩ where
  toPasses := ⟨id, target, topBlock, rfl, rfl, List.Subset.refl _, .none rfl rfl, coded⟩
  errors := rfl
  live := Or.imp (fun alive => goesOn alive.1 alive.2) fun pending => pending

theorem withStatus (turn : Turn) {status : Status} (notDone : status ≠ .done) :
    turn.Leads ⟨turn.host, turn.thread.withStatus status⟩ :=
  of_thread turn rfl rfl rfl (fun coded => coded) fun _ frames =>
    ⟨by simpa [Thread.isDone, Thread.withStatus], frames⟩

theorem wake (turn : Turn) : turn.Leads ⟨turn.host, turn.thread.wake⟩ := by
  unfold Thread.wake
  split
  · exact withStatus turn (by decide)
  · exact refl turn

theorem mapFrame (turn : Turn) (change : Frame → Frame) :
    turn.Leads ⟨turn.host, turn.thread.mapFrame change⟩ := by
  unfold Thread.mapFrame
  split
  · exact of_thread turn rfl rfl rfl (fun coded => coded) fun alive _ => ⟨alive, List.cons_ne_nil _ _⟩
  · exact refl turn

/-- Stopping everything ends the thread itself at once, and all others when its turn is over. -/
theorem stopAll (turn : Turn) :
    turn.Leads ⟨turn.host.requestStop .all, turn.thread.retire⟩ where
  toPasses := ⟨rfl, rfl, rfl, rfl, rfl, List.subset_append_left _ _, .none rfl rfl, fun _ => nofun⟩
  errors := rfl
  live := fun _ => .inr (List.mem_append_right _ (List.mem_singleton.mpr rfl))

end Leads

end Turn

/-! ## Computations that lead on -/

/-- Whatever comes of the computation, it leads on from the turn it starts with. -/
def Keeps {σ ε α : Type} (turn : σ → Turn) (act : ExceptT ε (StateM σ) α) (state : σ) : Prop :=
  (turn state).host.Native → (turn state).Leads (turn (act.run.run state).2)

namespace Keeps

variable {σ ε α β : Type} {turn : σ → Turn} {state : σ}

theorem pure {value : α} : Keeps turn (Pure.pure value : ExceptT ε (StateM σ) α) state :=
  fun _ => .refl _

theorem throw {error : ε} : Keeps turn (MonadExcept.throw error : ExceptT ε (StateM σ) α) state :=
  fun _ => .refl _

theorem bind {act : ExceptT ε (StateM σ) α} {next : α → ExceptT ε (StateM σ) β}
    (first : Keeps turn act state) (rest : ∀ value later, Keeps turn (next value) later) :
    Keeps turn (act >>= next) state := by
  intro native
  have leads := first native
  rw [ExceptT.run_bind, StateT.run_bind]
  generalize act.run.run state = result at leads
  obtain ⟨outcome, after⟩ := result
  cases outcome with
  | error error => exact leads
  | ok value => exact leads.trans (rest value after (leads.native native))

theorem getThen {next : σ → ExceptT ε (StateM σ) β} (rest : Keeps turn (next state) state) :
    Keeps turn ((MonadState.get : ExceptT ε (StateM σ) σ) >>= next) state := rest

theorem set {later : σ} (leads : (turn state).Leads (turn later)) :
    Keeps turn (MonadState.set later : ExceptT ε (StateM σ) PUnit) state :=
  fun _ => leads

theorem update {change : σ → σ} (leads : (turn state).Leads (turn (change state))) :
    Keeps turn (modify change : ExceptT ε (StateM σ) PUnit) state :=
  fun _ => leads

theorem mapM {f : α → ExceptT ε (StateM σ) β} {items : List α}
    (each : ∀ item later, Keeps turn (f item) later) : Keeps turn (items.mapM f) state := by
  induction items generalizing state with
  | nil => exact .pure
  | cons item rest ih =>
      rw [List.mapM_cons]
      exact .bind (each item state) fun _ _ => .bind ih fun _ _ => .pure

end Keeps

end StepCode
