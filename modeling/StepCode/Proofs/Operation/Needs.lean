import StepCode.Routine.Evaluate

/-!
# What blocks need a script for

A built-in block that is called by compiled code runs to its end unless it asks for something that
only a script of blocks has: a branch, a procedure, parameters, or a script to leave.  What it asks
for depends on its arguments and on nothing else but a loop's own count.
-/

namespace StepCode

/-! ## The program of a host -/

theorem map_data_modify {targets : List LiveTarget} {change : LiveTarget → LiveTarget}
    (same : ∀ live, (change live).data = live.data) (index : Nat) :
    (targets.modify index change).map LiveTarget.data = targets.map LiveTarget.data := by
  induction targets generalizing index with
  | nil => simp
  | cons live rest ih =>
      cases index with
      | zero => simp [same]
      | succ index => simp [ih]

theorem Host.data_setVariable (host : Host) (target : Nat) (name : String) (value : Value) :
    (host.setVariable target name value).targets.map LiveTarget.data =
      host.targets.map LiveTarget.data := by
  unfold Host.setVariable
  exact map_data_modify (by simp) _

theorem Host.data_say (host : Host) (target : Nat) (message : String) :
    (host.say target message).targets.map LiveTarget.data = host.targets.map LiveTarget.data := by
  unfold Host.say
  exact map_data_modify (by simp) _

/-- Two hosts have the same targets, apart from what scripts change, and the same compiled code. -/
structure Host.SameProgram (host other : Host) : Prop where
  data : other.targets.map LiveTarget.data = host.targets.map LiveTarget.data
  support : other.support = host.support

namespace Host.SameProgram

variable {host : Host}

theorem refl (host : Host) : host.SameProgram host := ⟨rfl, rfl⟩

theorem setVariable (target : Nat) (name : String) (value : Value) :
    host.SameProgram (host.setVariable target name value) :=
  ⟨host.data_setVariable target name value, rfl⟩

theorem readClock (host : Host) : host.SameProgram host.readClock := ⟨rfl, rfl⟩

theorem startThreads (host : Host) (scripts : List (Nat × String)) :
    host.SameProgram (host.startThreads scripts).1 := by
  induction scripts generalizing host with
  | nil => exact refl host
  | cons script rest ih =>
      have later := ih (host.startThread script.1 script.2)
      exact ⟨later.data, later.support⟩

end Host.SameProgram

/-! ## Needs -/

/-- What a stop block of this kind can end without a script. -/
def callableStops : List String := ["all", "other scripts in sprite", "other scripts in stage"]

namespace StandardBlock

/-- What a block asks of the script it stands in. -/
def need? (args : Table Value) (state : BlockState) (block : StandardBlock) : Option BlockNeed :=
  let arg (name : String) : Value := (args.get? name).getD .empty
  match block with
  | .call => some .call
  | .times =>
      if 0 < state.counter.getD (iterations (arg "TIMES")) then some .branch else none
  | .forever => some .branch
  | .ifTrue => if (arg "CONDITION").toBool then some .branch else none
  | .ifElse => some .branch
  | .untilTrue => if (arg "CONDITION").toBool then none else some .branch
  | .whileTrue => if (arg "CONDITION").toBool then some .branch else none
  | .stop => if callableStops.contains (arg "STOP_OPTION").toText then none else some .stopScript
  | .param _ => some .param
  | _ => none

/-- The outcome of a call: it fails for lack of what is needed, and for nothing else. -/
def Answers (need : Option BlockNeed) (host : Host) (result : Except RunError Value × Call) : Prop :=
  host.SameProgram result.2.host ∧
    match need with
    | some need => result.1 = .error (.unsupported need)
    | none => ∃ value, result.1 = .ok value

theorem run_runWait (seconds : Float) (call : Call) :
    ∃ after, (runWait seconds).run.run call = (.ok (), after) ∧ after.host = call.host.readClock := by
  obtain ⟨turn, site, ⟨timer, duration, counter⟩, signals⟩ := call
  cases timer with
  | none => exact ⟨_, rfl, rfl⟩
  | some started =>
      change ∃ after, (if !timerFinished turn.host.readClock.now _ then _ else _ : Operation Unit).run.run
        _ = (_, after) ∧ _
      split
      · exact ⟨_, rfl, rfl⟩
      · exact ⟨_, rfl, rfl⟩

theorem run_runTimes (count : Value) (call : Call) :
    (runTimes count).run.run call =
      (if 0 < call.state.counter.getD (iterations count) then Operation.enterBranch 1 true
        else pure ()).run.run
        { call with state := { call.state with
            counter := some (call.state.counter.getD (iterations count) - 1) } } := rfl

theorem run_runStop (option : String) (call : Call) (compiled : call.site = .compiled) :
    ∃ after, (runStop option).run.run call =
      (if callableStops.contains option then .ok () else .error (.unsupported .stopScript), after) ∧
      call.host.SameProgram after.host := by
  unfold runStop
  split
  · exact ⟨_, rfl, rfl, rfl⟩
  · exact ⟨_, rfl, rfl, rfl⟩
  · exact ⟨_, rfl, rfl, rfl⟩
  next all sprite stage =>
    have uncallable : callableStops.contains option = false := by
      simpa [callableStops] using And.intro all ⟨sprite, stage⟩
    obtain ⟨turn, site, state, signals⟩ := call
    obtain rfl : site = .compiled := compiled
    exact ⟨_, by rw [uncallable]; rfl, .refl _⟩

/-- A built-in block that compiled code calls fails exactly when it needs a script, and leaves the
program of the host as it is. -/
theorem answers_compiled (args : Table Value) (state : BlockState) (turn : Turn)
    (block : StandardBlock) :
    Answers (block.need? args state) turn.host ((block.run args).perform .compiled state turn) := by
  unfold StandardBlock.run Operation.perform need?
  cases block with
  | pass => exact ⟨.refl _, _, rfl⟩
  | call => exact ⟨.refl _, rfl⟩
  | setVariable => exact ⟨.setVariable _ _ _, _, rfl⟩
  | changeVariable => exact ⟨.setVariable _ _ _, _, rfl⟩
  | getVariable => exact ⟨.refl _, _, rfl⟩
  | say => exact ⟨⟨turn.host.data_say _ _, rfl⟩, _, rfl⟩
  | wait =>
      obtain ⟨after, runs, same⟩ := run_runWait ((args.get? "DURATION").getD .empty).toNumber
        { turn with site := .compiled, state := state, signals := .none }
      dsimp only
      rw [ExceptT.run_bind, StateT.run_bind, runs]
      exact ⟨same ▸ .readClock turn.host, _, rfl⟩
  | times =>
      dsimp only
      rw [ExceptT.run_bind, StateT.run_bind, run_runTimes]
      dsimp only
      split
      · exact ⟨.refl _, rfl⟩
      · exact ⟨.refl _, _, rfl⟩
  | forever => exact ⟨.refl _, rfl⟩
  | ifTrue =>
      dsimp only
      split
      · exact ⟨.refl _, rfl⟩
      · exact ⟨.refl _, _, rfl⟩
  | ifElse => exact ⟨.refl _, rfl⟩
  | untilTrue =>
      dsimp only
      cases ((args.get? "CONDITION").getD .empty).toBool
      · exact ⟨.refl _, rfl⟩
      · exact ⟨.refl _, _, rfl⟩
  | whileTrue =>
      dsimp only
      split
      · exact ⟨.refl _, rfl⟩
      · exact ⟨.refl _, _, rfl⟩
  | stop =>
      obtain ⟨after, runs, same⟩ := run_runStop ((args.get? "STOP_OPTION").getD .empty).toText
        { turn with site := .compiled, state := state, signals := .none } rfl
      dsimp only
      rw [ExceptT.run_bind, StateT.run_bind, runs]
      split
      · exact ⟨⟨same.data, same.support⟩, _, rfl⟩
      · exact ⟨⟨same.data, same.support⟩, rfl⟩
  | broadcast => exact ⟨.startThreads _ _, _, rfl⟩
  | param outside => exact ⟨.refl _, rfl⟩
  | operator op => exact ⟨.refl _, _, rfl⟩

end StandardBlock

end StepCode
