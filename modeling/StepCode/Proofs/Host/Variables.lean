import StepCode.Host.Basic

/-!
# Variables

A read looks on the target itself and then on the first stage.  A write goes to the target itself, or
else to the first stage that has the variable.  With one stage the two always meet; with more of them
a write may land on a later stage, where no read of the target looks.
-/

namespace StepCode.Host

/-- The value that a target has itself under a name. -/
def ownVariable? (host : Host) (target : Nat) (name : String) : Option Value :=
  host.targets[target]?.bind fun live => live.vars.get? name

/-- The number of the stage that reads look on. -/
def stageIndex? (host : Host) : Option Nat :=
  host.targets.findIdx? fun live => live.data.isStage

/-- The value that this stage has under a name. -/
def stageVariable? (host : Host) (name : String) : Option Value :=
  host.stageIndex?.bind fun stage => host.ownVariable? stage name

/-- A write of the target goes to a stage behind the first one: that stage has the variable, and
neither the target nor the first stage does. -/
def writesPastStage (host : Host) (target : Nat) (name : String) : Bool :=
  (host.ownVariable? target name).isNone && (host.stageVariable? name).isNone &&
    host.targets.any fun live => live.data.isStage && live.vars.contains name

section

variable {host : Host} {target other : Nat} {name key : String} {value : Value} {live : LiveTarget}

/-! ## Reading -/

theorem getVariable_eq (host : Host) (target : Nat) (name : String) :
    host.getVariable target name =
      ((host.ownVariable? target name).or (host.stageVariable? name)).getD .empty := by
  have ofStage : host.stageVariable? name = host.stage?.bind fun stage => stage.vars.get? name := by
    unfold stageVariable? stageIndex? ownVariable? stage?
    rw [List.find?_eq_bind_findIdx?_getElem?, Option.bind_assoc]
  unfold getVariable
  rw [ofStage, ownVariable?]
  cases host.targets[target]?.bind fun live => live.vars.get? name <;> rfl

theorem contains_eq_isSome (found : host.targets[target]? = some live) :
    live.vars.contains name = (host.ownVariable? target name).isSome := by
  rw [ownVariable?, found, Option.bind_some, Table.contains]

/-! ## Where a write goes -/

/-- The target has the variable itself. -/
theorem variableOwner_of_own (own : (host.ownVariable? target name).isSome) :
    host.variableOwner target name = target := by
  unfold variableOwner
  cases found : host.targets[target]? with
  | none => rfl
  | some live => simp [contains_eq_isSome found, own]

theorem variableOwner_of_missing (isTarget : target < host.targets.length)
    (missing : host.ownVariable? target name = none) :
    host.variableOwner target name =
      (host.targets.findIdx? fun live => live.data.isStage && live.vars.contains name).getD target := by
  have found := List.getElem?_eq_getElem isTarget
  simp [variableOwner, found, contains_eq_isSome found, missing]

/-- The target does not have the variable, and the first stage does. -/
theorem variableOwner_of_stage (isTarget : target < host.targets.length)
    (missing : host.ownVariable? target name = none) {stage : Nat}
    (isStage : host.stageIndex? = some stage) (stored : (host.ownVariable? stage name).isSome) :
    host.variableOwner target name = stage := by
  obtain ⟨inRange, atStage, first⟩ := List.findIdx?_eq_some_iff_getElem.mp isStage
  have owns : host.targets.findIdx? (fun live => live.data.isStage && live.vars.contains name) =
      some stage := by
    refine List.findIdx?_eq_some_iff_getElem.mpr ⟨inRange, ?_, fun earlier before => ?_⟩
    · simp [atStage, contains_eq_isSome (List.getElem?_eq_getElem inRange), stored]
    · simp [first earlier before]
  rw [variableOwner_of_missing isTarget missing, owns, Option.getD_some]

/-- Neither the target nor any stage has the variable. -/
theorem variableOwner_of_absent (isTarget : target < host.targets.length)
    (missing : host.ownVariable? target name = none)
    (absent : host.targets.any (fun live => live.data.isStage && live.vars.contains name) = false) :
    host.variableOwner target name = target := by
  have noOwner : host.targets.findIdx? (fun live => live.data.isStage && live.vars.contains name) =
      none :=
    List.findIdx?_eq_none_iff.mpr fun live mem => by
      simpa using List.any_eq_false.mp absent live mem
  rw [variableOwner_of_missing isTarget missing, noOwner, Option.getD_none]

/-- A write past the first stage reaches a target that has the variable. -/
theorem isSome_ownVariable?_of_past (isTarget : target < host.targets.length)
    (past : host.writesPastStage target name = true) :
    (host.ownVariable? (host.variableOwner target name) name).isSome := by
  simp only [writesPastStage, Bool.and_eq_true, Option.isNone_iff_eq_none] at past
  obtain ⟨⟨missing, -⟩, laterStage⟩ := past
  obtain ⟨owner, isOwner⟩ := Option.isSome_iff_exists.mp
    (List.findIdx?_isSome.trans laterStage)
  obtain ⟨inRange, owns, -⟩ := List.findIdx?_eq_some_iff_getElem.mp isOwner
  rw [variableOwner_of_missing isTarget missing, isOwner, Option.getD_some,
    ← contains_eq_isSome (List.getElem?_eq_getElem inRange)]
  exact (Bool.and_eq_true_iff.mp owns).2

theorem variableOwner_lt (isTarget : target < host.targets.length) (name : String) :
    host.variableOwner target name < host.targets.length := by
  cases own : host.ownVariable? target name with
  | some stored => rwa [variableOwner_of_own (by simp [own])]
  | none =>
      rw [variableOwner_of_missing isTarget own]
      cases found : host.targets.findIdx? fun live => live.data.isStage && live.vars.contains name with
      | none => exact isTarget
      | some owner => exact (List.findIdx?_eq_some_iff_getElem.mp found).1

/-! ## Reading after a write -/

@[simp] theorem stageIndex?_setVariable :
    (host.setVariable target name value).stageIndex? = host.stageIndex? := by
  have same : ∀ (targets : List LiveTarget) (owner : Nat) (change : LiveTarget → LiveTarget),
      (∀ live, (change live).data = live.data) →
      (targets.modify owner change).findIdx? (fun live => live.data.isStage) =
        targets.findIdx? fun live => live.data.isStage := by
    intro targets owner change kept
    induction targets generalizing owner with
    | nil => simp
    | cons live rest ih => cases owner <;> simp [List.findIdx?_cons, kept, ih]
  exact same _ _ _ fun _ => rfl

/-- A write changes one variable of one target. -/
theorem ownVariable?_setVariable (isTarget : target < host.targets.length) :
    (host.setVariable target name value).ownVariable? other key =
      if other = host.variableOwner target name ∧ key = name then some value
      else host.ownVariable? other key := by
  unfold ownVariable? setVariable
  rw [List.getElem?_modify]
  by_cases here : host.variableOwner target name = other
  · have inRange : other < host.targets.length := here ▸ variableOwner_lt isTarget name
    simp [List.getElem?_eq_getElem inRange, Table.get?_insert, here]
  · have apart : ¬ (other = host.variableOwner target name ∧ key = name) := fun same => here same.1.symm
    simp only [here, apart, if_false, Option.map_eq_map, Option.map_id']

theorem getVariable_setVariable_of_ne (isTarget : target < host.targets.length) (other : Nat)
    (different : key ≠ name) :
    (host.setVariable target name value).getVariable other key = host.getVariable other key := by
  have own : ∀ place, (host.setVariable target name value).ownVariable? place key =
      host.ownVariable? place key := by
    intro place
    rw [ownVariable?_setVariable isTarget, if_neg fun same => different same.2]
  simp only [getVariable_eq, stageVariable?, stageIndex?_setVariable, own]

theorem getVariable_setVariable_of_own (isTarget : target < host.targets.length)
    (apart : other ≠ host.variableOwner target name)
    (own : (host.ownVariable? other name).isSome) :
    (host.setVariable target name value).getVariable other name = host.getVariable other name := by
  obtain ⟨stored, isStored⟩ := Option.isSome_iff_exists.mp own
  rw [getVariable_eq, getVariable_eq, ownVariable?_setVariable isTarget,
    if_neg fun same => apart same.1, isStored, Option.some_or, Option.some_or]

/-- The target reads its own variable if the write went to it. -/
theorem getVariable_setVariable_of_owner (isTarget : target < host.targets.length)
    (isOwner : host.variableOwner target name = target) :
    (host.setVariable target name value).getVariable target name = value := by
  rw [getVariable_eq, ownVariable?_setVariable isTarget, if_pos ⟨isOwner.symm, rfl⟩]
  rfl

/-- What the target reads when the write went elsewhere. -/
theorem getVariable_setVariable_of_elsewhere (isTarget : target < host.targets.length)
    (missing : host.ownVariable? target name = none)
    (elsewhere : host.variableOwner target name ≠ target) :
    (host.setVariable target name value).getVariable target name =
      if host.stageIndex? = some (host.variableOwner target name) then value
      else (host.stageVariable? name).getD .empty := by
  rw [getVariable_eq, ownVariable?_setVariable isTarget, if_neg fun same => elsewhere same.1.symm,
    missing, Option.none_or]
  unfold stageVariable?
  rw [stageIndex?_setVariable]
  cases isStage : host.stageIndex? with
  | none => rfl
  | some stage =>
      rw [Option.bind_some, Option.bind_some, ownVariable?_setVariable isTarget]
      by_cases here : stage = host.variableOwner target name
      · rw [if_pos ⟨here, rfl⟩, if_pos (congrArg some here)]
        rfl
      · rw [if_neg fun same => here same.1, if_neg fun same => here (Option.some.inj same)]

/-- The target reads what it wrote, unless the write went past the first stage. -/
theorem getVariable_setVariable (isTarget : target < host.targets.length) :
    (host.setVariable target name value).getVariable target name =
      if host.writesPastStage target name then .empty else value := by
  cases own : host.ownVariable? target name with
  | some stored =>
      have near : host.writesPastStage target name = false := by simp [writesPastStage, own]
      rw [near, getVariable_setVariable_of_owner isTarget (variableOwner_of_own (by simp [own]))]
      rfl
  | none =>
      cases atStage : host.stageVariable? name with
      | some stored =>
          have near : host.writesPastStage target name = false := by
            simp [writesPastStage, atStage]
          obtain ⟨stage, isStage, isStored⟩ := Option.bind_eq_some_iff.mp atStage
          have isOwner := variableOwner_of_stage isTarget own isStage (by simp [isStored])
          have elsewhere : host.variableOwner target name ≠ target := by
            rintro here
            rw [← isOwner, here, own] at isStored
            cases isStored
          rw [getVariable_setVariable_of_elsewhere isTarget own elsewhere, isOwner, if_pos isStage, near]
          rfl
      | none =>
          cases laterStage : host.targets.any fun live => live.data.isStage && live.vars.contains name with
          | false =>
              have near : host.writesPastStage target name = false := by
                simp only [writesPastStage, laterStage, Bool.and_false]
              have isOwner := variableOwner_of_absent isTarget own laterStage
              rw [getVariable_setVariable_of_owner isTarget isOwner, near]
              rfl
          | true =>
              have past : host.writesPastStage target name = true := by
                simp only [writesPastStage, own, atStage, laterStage, Option.isNone_none, Bool.and_true]
              have stored := isSome_ownVariable?_of_past isTarget past
              have elsewhere : host.variableOwner target name ≠ target := by
                intro here
                rw [here, own] at stored
                cases stored
              have notFirst : host.stageIndex? ≠ some (host.variableOwner target name) := by
                intro isStage
                rw [stageVariable?, isStage, Option.bind_some] at atStage
                rw [atStage] at stored
                cases stored
              rw [getVariable_setVariable_of_elsewhere isTarget own elsewhere, if_neg notFirst, atStage,
                past]
              rfl

end

/-! ## Writing and reading back -/

/-- After a write the target reads the value, unless a stage behind the first one has taken it; then
the target reads nothing.  No other name is read differently by any target, nor is this name by a
target that has it itself and was not written. -/
theorem written_variables_read_back_but_behind_a_stage (host : Host) {target : Nat}
    (isTarget : target < host.targets.length) (name : String) (value : Value) :
    (host.setVariable target name value).getVariable target name =
        (if host.writesPastStage target name then .empty else value) ∧
      (∀ other key, key ≠ name →
        (host.setVariable target name value).getVariable other key = host.getVariable other key) ∧
      ∀ other, other ≠ host.variableOwner target name → (host.ownVariable? other name).isSome →
        (host.setVariable target name value).getVariable other name = host.getVariable other name :=
  ⟨getVariable_setVariable isTarget,
    fun other _ different => getVariable_setVariable_of_ne isTarget other different,
    fun _ apart own => getVariable_setVariable_of_own isTarget apart own⟩

/-- A stage without variables, a second one with `x`, and a sprite with its own `x`. -/
def twoStages : Host := Host.start ⟨[
  ⟨true, "Front", .empty, .empty, .empty, .empty⟩,
  ⟨true, "Back", ⟨[("v", .array [.text "x", .text "0"])]⟩, .empty, .empty, .empty⟩,
  ⟨false, "Sprite", ⟨[("w", .array [.text "x", .text "1"])]⟩, .empty, .empty, .empty⟩],
  [], .empty, .empty⟩

/-- What the first stage writes to `x` lands on the second, and the sprite keeps its own. -/
theorem front_stage_reads_nothing_back : 0 < twoStages.targets.length ∧
    (twoStages.setVariable 0 "x" (.text "new")).getVariable 0 "x" = .empty ∧
    (twoStages.setVariable 0 "x" (.text "new")).getVariable 1 "x" = .text "new" ∧
    (twoStages.setVariable 0 "x" (.text "new")).getVariable 2 "x" = twoStages.getVariable 2 "x" := by
  have isTarget : 0 < twoStages.targets.length := by decide
  obtain ⟨readBack, -, kept⟩ :=
    written_variables_read_back_but_behind_a_stage twoStages isTarget "x" (.text "new")
  exact ⟨isTarget, readBack, rfl, kept 2 (by decide) rfl⟩

/-- Not every write is read back. -/
theorem writes_may_not_read_back : ¬ ∀ (host : Host) (target : Nat) (name : String) (value : Value),
    target < host.targets.length → (host.setVariable target name value).getVariable target name = value := by
  intro readsBack
  have isText := readsBack twoStages 0 "x" (.text "new") (by decide)
  cases isText

end StepCode.Host
