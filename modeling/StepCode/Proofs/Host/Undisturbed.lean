import StepCode.Proofs.Operation.Needs
import StepCode.Thread.Interpret

/-!
# What built-in blocks leave alone

Built-in blocks change variables, threads and what is said.  They leave the program, its support and
the extensions as they are, and never move a thread to another target.
-/

namespace StepCode

namespace Turn

/-- At the later moment, the program, its support and the extensions are what they were, and the thread
runs on the same target. -/
structure Undisturbed (before after : Turn) : Prop where
  program : before.host.SameProgram after.host
  extensions : after.host.extensions = before.host.extensions
  target : after.thread.target = before.thread.target

namespace Undisturbed

variable {first second third : Turn}

theorem refl (turn : Turn) : turn.Undisturbed turn := ⟨.refl _, rfl, rfl⟩

theorem trans (one : first.Undisturbed second) (other : second.Undisturbed third) :
    first.Undisturbed third where
  program :=
    ⟨other.program.data.trans one.program.data, other.program.support.trans one.program.support⟩
  extensions := other.extensions.trans one.extensions
  target := other.target.trans one.target

/-- The thread is changed, and stays on its target. -/
theorem of_thread {thread : Thread} (turn : Turn) (target : thread.target = turn.thread.target) :
    turn.Undisturbed ⟨turn.host, thread⟩ :=
  ⟨.refl _, rfl, target⟩

theorem readClock (turn : Turn) : turn.Undisturbed turn.readClock :=
  ⟨.readClock turn.host, rfl, rfl⟩

theorem setVariable (turn : Turn) (name : String) (value : Value) :
    turn.Undisturbed ⟨turn.host.setVariable turn.thread.target name value, turn.thread⟩ :=
  ⟨.setVariable _ _ _, rfl, rfl⟩

theorem say (turn : Turn) (message : String) :
    turn.Undisturbed ⟨turn.host.say turn.thread.target message, turn.thread⟩ :=
  ⟨⟨turn.host.data_say _ _, rfl⟩, rfl, rfl⟩

theorem startThreads (turn : Turn) (scripts : List (Nat × String)) :
    turn.Undisturbed ⟨(turn.host.startThreads scripts).1, turn.thread⟩ where
  program := .startThreads turn.host scripts
  extensions := by
    generalize turn.host = host
    induction scripts generalizing host with
    | nil => rfl
    | cons script rest ih => exact ih (host.startThread script.1 script.2)
  target := rfl

theorem requestStop (turn : Turn) (stop : StopRequest) :
    turn.Undisturbed ⟨turn.host.requestStop stop, turn.thread⟩ :=
  ⟨⟨rfl, rfl⟩, rfl, rfl⟩

theorem mapFrame (turn : Turn) (change : Frame → Frame) :
    turn.Undisturbed ⟨turn.host, turn.thread.mapFrame change⟩ := by
  refine of_thread turn ?_
  unfold Thread.mapFrame
  split
  · rfl
  · rfl

end Undisturbed

end Turn

/-! ## Computations -/

/-- Whatever comes of the computation, it leaves its turn undisturbed. -/
def Calm {σ ε α : Type} (turn : σ → Turn) (act : ExceptT ε (StateM σ) α) (state : σ) : Prop :=
  (turn state).Undisturbed (turn (act.run.run state).2)

namespace Calm

variable {σ ε α β : Type} {turn : σ → Turn} {state : σ}

theorem pure {value : α} : Calm turn (Pure.pure value : ExceptT ε (StateM σ) α) state := .refl _

theorem throw {error : ε} : Calm turn (MonadExcept.throw error : ExceptT ε (StateM σ) α) state :=
  .refl _

theorem bind {act : ExceptT ε (StateM σ) α} {next : α → ExceptT ε (StateM σ) β}
    (first : Calm turn act state) (rest : ∀ value later, Calm turn (next value) later) :
    Calm turn (act >>= next) state := by
  have calm : (turn state).Undisturbed _ := first
  unfold Calm
  rw [ExceptT.run_bind, StateT.run_bind]
  generalize act.run.run state = result at calm
  obtain ⟨outcome, after⟩ := result
  cases outcome with
  | error error => exact calm
  | ok value => exact calm.trans (rest value after)

theorem getThen {next : σ → ExceptT ε (StateM σ) β} (rest : Calm turn (next state) state) :
    Calm turn ((MonadState.get : ExceptT ε (StateM σ) σ) >>= next) state := rest

theorem update {change : σ → σ} (calm : (turn state).Undisturbed (turn (change state))) :
    Calm turn (modify change : ExceptT ε (StateM σ) PUnit) state := calm

end Calm

/-! ## Blocks -/

namespace Operation

variable {call : Call}

theorem blockId?_calm : Calm Call.toTurn blockId? call := by
  unfold blockId?
  refine .getThen ?_
  split
  · exact .pure
  · exact .pure

theorem inScript_calm {need : BlockNeed} : Calm Call.toTurn (inScript need) call := by
  unfold inScript
  refine .getThen ?_
  split
  · exact .pure
  · exact .throw

theorem now_calm : Calm Call.toTurn now call :=
  .bind (.update (.readClock call.toTurn)) fun _ _ => .getThen .pure

theorem repeatNextTick_calm : Calm Call.toTurn repeatNextTick call :=
  .update (.of_thread call.toTurn rfl)

theorem enterBranch_calm {branch : Nat} {isLoop : Bool} :
    Calm Call.toTurn (enterBranch branch isLoop) call :=
  .bind inScript_calm fun _ _ => .update (.refl _)

end Operation

namespace StandardBlock

open Operation

variable {call : Call}

theorem runWait_calm {seconds : Float} : Calm Call.toTurn (runWait seconds) call := by
  unfold runWait
  refine .getThen (.bind now_calm fun now _ => ?_)
  split
  · exact .bind (.update (.refl _)) fun _ _ => repeatNextTick_calm
  · split
    · exact repeatNextTick_calm
    · exact .pure

theorem runTimes_calm {count : Value} : Calm Call.toTurn (runTimes count) call := by
  unfold runTimes
  refine .getThen (.bind (.update (.refl _)) fun _ _ => ?_)
  split
  · exact enterBranch_calm
  · exact .pure

theorem runStop_calm {option : String} : Calm Call.toTurn (runStop option) call := by
  unfold runStop
  split
  · exact .bind (.update (.requestStop call.toTurn _)) fun _ later => .update (.of_thread later.toTurn rfl)
  · exact .getThen (.update (.requestStop call.toTurn _))
  · exact .getThen (.update (.requestStop call.toTurn _))
  · exact .bind inScript_calm fun _ _ => .update (.refl _)

theorem runCall_calm : Calm Call.toTurn runCall call := by
  unfold runCall
  refine .getThen (.bind blockId?_calm fun _ _ => ?_)
  dsimp only
  split
  · exact .bind inScript_calm fun _ _ => .update (.refl _)
  · exact .throw

theorem runBroadcast_calm {message : String} : Calm Call.toTurn (runBroadcast message) call :=
  .bind (.update (.startThreads call.toTurn _)) fun _ later => .update (.of_thread later.toTurn rfl)

/-- A built-in block leaves its turn undisturbed, in a script as well as in compiled code. -/
theorem run_calm {args : Table Value} (block : StandardBlock) :
    Calm Call.toTurn (block.run args) call := by
  unfold run
  cases block with
  | pass => exact .pure
  | call => exact .bind runCall_calm fun _ _ => .pure
  | setVariable => exact .bind (.update (.setVariable call.toTurn _ _)) fun _ _ => .pure
  | changeVariable =>
      exact .getThen (.bind (.update (.setVariable call.toTurn _ _)) fun _ _ => .pure)
  | getVariable => exact .getThen .pure
  | say => exact .bind (.update (.say call.toTurn _)) fun _ _ => .pure
  | wait => exact .bind runWait_calm fun _ _ => .pure
  | times => exact .bind runTimes_calm fun _ _ => .pure
  | forever => exact .bind enterBranch_calm fun _ _ => .pure
  | ifTrue =>
      dsimp only
      split
      · exact .bind enterBranch_calm fun _ _ => .pure
      · exact .pure
  | ifElse => exact .bind enterBranch_calm fun _ _ => .pure
  | untilTrue =>
      dsimp only
      split
      · exact .bind enterBranch_calm fun _ _ => .pure
      · exact .pure
  | whileTrue =>
      dsimp only
      split
      · exact .bind enterBranch_calm fun _ _ => .pure
      · exact .pure
  | stop => exact .bind runStop_calm fun _ _ => .pure
  | broadcast => exact .bind runBroadcast_calm fun _ _ => .pure
  | param outside => exact .bind (.bind inScript_calm fun _ _ => .getThen .pure) fun _ _ => .pure
  | operator op => exact .pure

end StandardBlock

end StepCode
