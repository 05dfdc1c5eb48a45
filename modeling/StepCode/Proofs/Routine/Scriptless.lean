import StepCode.Proofs.Operation.Needs
import StepCode.Proofs.Routine.Resolving
import StepCode.Proofs.Routine.Running
import StepCode.Proofs.Tables

/-!
# Step code that needs no script

Compiled code may call every block but those that ask for a branch, a procedure, a parameter or a
script to leave.  Step code that calls no such block never fails for lack of a script, however often
it is resumed, as long as the routines it calls are of this kind as well.
-/

namespace StepCode

/-! ## Step code -/

/-- The last arguments called `name` are the literal `text`, so the block finds this text. -/
def NamedText (args : List (String × Expr)) (name text : String) : Prop :=
  ∃ before after, args = before ++ after ∧ (name, Expr.text text) ∈ after ∧
    ∀ expr, (name, expr) ∈ after → expr = .text text

/-- The block asks for no script, whatever its arguments come to. -/
def StandardBlock.Scriptless (args : List (String × Expr)) : StandardBlock → Prop
  | .call | .times | .forever | .ifTrue | .ifElse | .untilTrue | .whileTrue | .param _ => False
  | .stop => ∃ option ∈ callableStops, NamedText args "STOP_OPTION" option
  | _ => True

/-- Calling the block with these arguments asks for no script. -/
def CallScriptless (opcode : String) (args : List (String × Expr)) : Prop :=
  ∀ block, StandardBlock.ofOpcode? opcode = some block → block.Scriptless args

mutual

/-- No block that the expression calls asks for a script. -/
def Expr.Scriptless : Expr → Prop
  | .helper _ args => ExprsScriptless args
  | .report opcode args => CallScriptless opcode args ∧ ArgsScriptless args
  | .choose cond yes no => cond.Scriptless ∧ yes.Scriptless ∧ no.Scriptless
  | .builtin _ args => ExprsScriptless args
  | .number _ | .text _ | .bool _ | .var _ | .param _ => True

def ExprsScriptless : List Expr → Prop
  | [] => True
  | arg :: rest => arg.Scriptless ∧ ExprsScriptless rest

def ArgsScriptless : List (String × Expr) → Prop
  | [] => True
  | (_, arg) :: rest => arg.Scriptless ∧ ArgsScriptless rest

end

/-- No block that the statement itself calls asks for a script; its bodies are not considered. -/
def Instr.Scriptless : Instr → Prop
  | .set _ value => value.Scriptless
  | .change _ amount => amount.Scriptless
  | .op opcode args => CallScriptless opcode args ∧ ArgsScriptless args
  | .call _ args => ExprsScriptless args
  | .times count _ => count.Scriptless
  | .whileTrue cond _ | .untilTrue cond _ | .ifElse cond _ _ => cond.Scriptless
  | .ret (some value) => value.Scriptless
  | .yield | .forever _ | .ret none => True

structure Routine.Scriptless (routine : Routine) : Prop where
  bodies : ∀ body ∈ routine.bodies, ∀ instr ∈ body, instr.Scriptless
  helpers : ∀ name helper, routine.helpers.get? name = some helper → helper.body.Scriptless

theorem Routine.Scriptless.instr {routine : Routine} (scriptless : routine.Scriptless) {id index : Nat}
    {instr : Instr} (found : routine.instr? id index = some instr) : instr.Scriptless := by
  obtain ⟨body, stored, here⟩ := exists_body_of_instr? found
  exact scriptless.bodies body (List.mem_of_getElem? stored) instr (List.mem_of_getElem? here)

/-! ## Computations without a script -/

/-- The computation succeeded with a `good` value, or failed for something else than a script. -/
def Sound {α : Type} (good : α → Prop) : Except RunError α → Prop
  | .ok value => good value
  | .error error => ∀ need, error ≠ .unsupported need

/-- The computation keeps what holds of the host, and does not fail for lack of a script. -/
def Safe {α : Type} (kept : Host → Prop) (good : α → Prop) (act : Act α) : Prop :=
  ∀ turn, kept turn.host → kept (act.run.run turn).2.host ∧ Sound good (act.run.run turn).1

namespace Safe

variable {kept : Host → Prop} {α β : Type} {good other : α → Prop} {post : β → Prop}

theorem pure {value : α} (isGood : good value) : Safe kept good (Pure.pure value) :=
  fun _ held => ⟨held, isGood⟩

theorem throw {error : RunError} (isOther : ∀ need, error ≠ .unsupported need) :
    Safe kept good (MonadExcept.throw error : Act α) :=
  fun _ held => ⟨held, isOther⟩

theorem bind {act : Act α} {next : α → Act β} (first : Safe kept good act)
    (rest : ∀ value, good value → Safe kept post (next value)) : Safe kept post (act >>= next) := by
  intro turn held
  obtain ⟨still, sound⟩ := first turn held
  rw [ExceptT.run_bind, StateT.run_bind]
  generalize act.run.run turn = result at still sound
  obtain ⟨outcome, after⟩ := result
  cases outcome with
  | error error => exact ⟨still, sound⟩
  | ok value => exact rest value sound after still

theorem mono {act : Act α} (safe : Safe kept good act) (weaker : ∀ value, good value → other value) :
    Safe kept other act := by
  intro turn held
  obtain ⟨still, sound⟩ := safe turn held
  refine ⟨still, ?_⟩
  generalize (act.run.run turn).1 = outcome at sound
  cases outcome with
  | error error => exact sound
  | ok value => exact weaker value sound

theorem get : Safe kept (fun turn => kept turn.host) (MonadState.get : Act Turn) :=
  fun _ held => ⟨held, held⟩

theorem set {turn : Turn} (held : kept turn.host) :
    Safe kept (fun _ => True) (MonadState.set turn : Act Unit) :=
  fun _ _ => ⟨held, trivial⟩

theorem update {change : Turn → Turn} (keeps : ∀ turn, kept turn.host → kept (change turn).host) :
    Safe kept (fun _ => True) (modify change : Act Unit) :=
  fun turn held => ⟨keeps turn held, trivial⟩

end Safe

/-! ## Loaded programs -/

/-- A program as a host has loaded it: its targets, and the helpers that compiled code may call. -/
structure LoadedProgram where
  targets : List Target
  helpers : Table Helper

namespace LoadedProgram

variable (program : LoadedProgram)

/-- The routine is loaded from a marker of the program. -/
def Carries (routine : Routine) : Prop :=
  ∃ target ∈ program.targets, ∃ id marker source, target.block? id = some marker ∧
    marker.opcode = markerOpcode ∧ target.markerSource? marker = some source ∧
    Routine.load source program.helpers = .ok routine

/-- What the support has kept is loaded from markers of the program. -/
structure Serves (support : Support) : Prop where
  helpers : support.helpers = program.helpers
  markers : ∀ key routine, support.markers.get? key = some routine → program.Carries routine
  procedures : ∀ key routine, support.procedures.get? key = some (some routine) →
    program.Carries routine

/-- A host that runs the program, at any time: whatever its scripts have done so far, its targets are
those of the program and its routines are loaded from the markers. -/
structure Runs (host : Host) : Prop where
  data : host.targets.map LiveTarget.data = program.targets
  support : ∀ support, host.support = some support → program.Serves support

variable {program}

theorem Runs.of_sameProgram {host other : Host} (runs : program.Runs host)
    (same : host.SameProgram other) : program.Runs other :=
  ⟨same.data.trans runs.data, fun support found => runs.support support (same.support ▸ found)⟩

theorem exists_of_procedureMarker? {target : Target} {proccode id source : String}
    (found : target.procedureMarker? proccode = some (id, source)) :
    ∃ marker, target.block? id = some marker ∧ marker.opcode = markerOpcode ∧
      target.markerSource? marker = some source := by
  simp only [Target.procedureMarker?, Option.bind_eq_bind, Option.bind_eq_some_iff] at found
  obtain ⟨_, -, _, -, _, -, next, -, marker, isMarker, found⟩ := found
  split at found
  next opcode =>
    simp only [Option.bind_eq_some_iff, Option.pure_def, Option.some.injEq, Prod.mk.injEq] at found
    obtain ⟨_, shown, rfl, rfl⟩ := found
    exact ⟨marker, isMarker, opcode, shown⟩
  next => simp at found

/-- Entering a marker of the program keeps what is loaded, and gives a routine of the program. -/
theorem Serves.markerRoutine {support after : Support} {target : Target} {id source : String}
    {routine : Routine} (serves : program.Serves support) (mem : target ∈ program.targets)
    (isMarker : ∃ marker, target.block? id = some marker ∧ marker.opcode = markerOpcode ∧
      target.markerSource? marker = some source)
    (done : support.markerRoutine target.name id source = .ok (routine, after)) :
    program.Serves after ∧ program.Carries routine := by
  rcases Support.markerRoutine_eq_ok.mp done with ⟨kept, rfl⟩ | ⟨-, loaded, rfl⟩
  · exact ⟨serves, serves.markers _ routine kept⟩
  · obtain ⟨marker, found, opcode, shown⟩ := isMarker
    have carries : program.Carries routine :=
      ⟨target, mem, id, marker, source, found, opcode, shown, serves.helpers ▸ loaded⟩
    refine ⟨⟨serves.helpers, fun key other found => ?_, serves.procedures⟩, carries⟩
    rcases Cache.get?_add.mp found with before | ⟨-, -, rfl⟩
    · exact serves.markers key other before
    · exact carries

/-- Resolving a call keeps what is loaded, and answers with a routine of the program if any. -/
theorem Serves.resolve {support after : Support} {target : Target} {signature : String}
    {procedure : Option Routine} (serves : program.Serves support) (mem : target ∈ program.targets)
    (done : support.resolve target signature = .ok (procedure, after)) :
    program.Serves after ∧ ∀ routine, procedure = some routine → program.Carries routine := by
  unfold Support.resolve at done
  dsimp only at done
  split at done
  next kept isKept =>
    obtain ⟨rfl, rfl⟩ := Prod.mk.inj (Except.ok.inj done)
    exact ⟨serves, fun routine isRoutine => serves.procedures _ routine (isRoutine ▸ isKept)⟩
  next =>
    split at done
    next =>
      obtain ⟨rfl, rfl⟩ := Prod.mk.inj (Except.ok.inj done)
      refine ⟨⟨serves.helpers, serves.markers, fun key routine found => ?_⟩, by simp⟩
      rcases Cache.get?_add.mp found with before | ⟨-, -, isNone⟩
      · exact serves.procedures key routine before
      · cases isNone
    next id source found =>
      obtain ⟨⟨routine, middle⟩, entered, same⟩ := bind_eq_ok.mp done
      obtain ⟨rfl, rfl⟩ := Prod.mk.inj (Except.ok.inj same)
      obtain ⟨still, carries⟩ := serves.markerRoutine mem (exists_of_procedureMarker? found) entered
      refine ⟨⟨still.helpers, still.markers, fun key other found => ?_⟩, by simpa using carries⟩
      rcases Cache.get?_add.mp found with before | ⟨-, -, isRoutine⟩
      · exact still.procedures key other before
      · exact Option.some.inj isRoutine ▸ carries

end LoadedProgram

/-! ## Evaluation -/

/-- The blocks of foreign extensions keep the program of the host, and ask for no script. -/
def Foreign.Scriptless (program : LoadedProgram) (foreign : Foreign) : Prop :=
  ∀ extension opcode args state turn, program.Runs turn.host →
    program.Runs ((foreign extension opcode args).perform .compiled state turn).2.host ∧
      Sound (fun _ => True) ((foreign extension opcode args).perform .compiled state turn).1

section

variable {program : LoadedProgram} {foreign : Foreign} {opcode : String}

theorem perform_dispatch_extension (isNone : StandardBlock.ofOpcode? opcode = none)
    {extension inner : String} (isSplit : splitOpcode? opcode = some (extension, inner))
    (args : Table Value) (site : Site) (state : BlockState) (turn : Turn) :
    (dispatch foreign opcode args).perform site state turn =
      Operation.perform (match turn.host.extensions.get? extension with
        | none => return .empty
        | some .support => supportCall inner args
        | some (.foreign _) => foreign extension inner args) site state turn := by
  unfold dispatch
  rw [isNone]
  dsimp only
  rw [isSplit]
  rfl

/-- The marker block is run by the extension for compiled code. -/
theorem perform_marker {turn : Turn}
    (registered : turn.host.extensions.get? supportExtension = some .support) (args : Table Value)
    (site : Site) (state : BlockState) :
    (dispatch foreign markerOpcode args).perform site state turn =
      (enterMarker (((args.get? markerInput).map Value.toText).getD "")).perform site state turn := by
  have isNone : StandardBlock.ofOpcode? markerOpcode = none := by decide
  have isSplit : splitOpcode? markerOpcode = some (supportExtension, "compile") := by decide
  rw [perform_dispatch_extension isNone isSplit, registered]
  rfl

/-- A block that needs no script with its arguments is run without one. -/
theorem dispatch_scriptless (foreignScriptless : foreign.Scriptless program) {args : Table Value}
    {state : BlockState}
    (needs : ∀ block, StandardBlock.ofOpcode? opcode = some block → block.need? args state = none)
    {turn : Turn} (runs : program.Runs turn.host) :
    program.Runs ((dispatch foreign opcode args).perform .compiled state turn).2.host ∧
      Sound (fun _ => True) ((dispatch foreign opcode args).perform .compiled state turn).1 := by
  cases isStandard : StandardBlock.ofOpcode? opcode with
  | some block =>
      obtain ⟨same, outcome⟩ := block.answers_compiled args state turn
      rw [needs block isStandard] at outcome
      obtain ⟨value, isValue⟩ := outcome
      have isBlock : dispatch foreign opcode args = block.run args := by rw [dispatch, isStandard]
      rw [isBlock]
      exact ⟨runs.of_sameProgram same, by rw [isValue]; trivial⟩
  | none =>
      cases isSplit : splitOpcode? opcode with
      | none =>
          have nothing : dispatch foreign opcode args = return .empty := by
            rw [dispatch, isStandard]; dsimp only; rw [isSplit]
          rw [nothing]
          exact ⟨runs, trivial⟩
      | some parts =>
          rw [perform_dispatch_extension isStandard isSplit]
          split
          · exact ⟨runs, trivial⟩
          · unfold supportCall
            split
            · exact ⟨runs, by rintro need ⟨⟩⟩
            · exact ⟨runs, trivial⟩
          · exact foreignScriptless _ _ _ _ _ runs

theorem runBlock_safe (foreignScriptless : foreign.Scriptless program) {args : Table Value}
    {state : BlockState}
    (needs : ∀ block, StandardBlock.ofOpcode? opcode = some block → block.need? args state = none) :
    Safe program.Runs (fun _ => True) (runBlock foreign opcode args state) := by
  intro turn runs
  obtain ⟨still, sound⟩ := dispatch_scriptless foreignScriptless needs runs
  change program.Runs (runBlock foreign opcode args state turn).2.host ∧
    Sound (fun _ => True) (runBlock foreign opcode args state turn).1
  unfold runBlock
  generalize (dispatch foreign opcode args).perform .compiled state turn = result at still sound
  obtain ⟨outcome, call⟩ := result
  cases outcome with
  | error error => exact ⟨still, sound⟩
  | ok value => exact ⟨still, trivial⟩

theorem reportBlock_safe (foreignScriptless : foreign.Scriptless program) {args : Table Value}
    (needs : ∀ block, StandardBlock.ofOpcode? opcode = some block →
      ∀ state, block.need? args state = none) :
    Safe program.Runs (fun _ => True) (reportBlock foreign opcode args) := by
  unfold reportBlock
  refine .bind (runBlock_safe foreignScriptless fun block found => needs block found _) ?_
  intro completion _
  exact .bind (.update fun turn runs => runs) fun _ _ => .pure trivial

theorem readClock_safe : Safe program.Runs (fun _ => True) (modify Turn.readClock : Act Unit) :=
  .update fun turn runs => runs.of_sameProgram (.readClock turn.host)

theorem elapsed_safe : Safe program.Runs (fun _ => True) Act.elapsed :=
  .bind readClock_safe fun _ _ => .bind .get fun _ _ => .pure trivial

theorem isOverdue_safe : Safe program.Runs (fun _ => True) Act.isOverdue :=
  .bind readClock_safe fun _ _ => .bind .get fun _ _ => .pure trivial

/-- The values of named arguments: under their names, and texts as they stand. -/
def Evaluated (args : List (String × Expr)) (values : List (String × Value)) : Prop :=
  List.Forall₂ (fun arg value => value.1 = arg.1 ∧ ∀ text, arg.2 = .text text → value.2 = .text text)
    args values

/-- A block finds the text that its last arguments of a name are. -/
theorem get?_ofList_of_namedText {args : List (String × Expr)} {values : List (String × Value)}
    {name text : String} (evaluated : Evaluated args values) (named : NamedText args name text) :
    (Table.ofList values).get? name = some (.text text) := by
  obtain ⟨before, after, rfl, mem, only⟩ := named
  have last : Evaluated after (values.drop before.length) := by
    have dropped := List.forall₂_drop before.length evaluated
    rwa [List.drop_left] at dropped
  obtain ⟨⟨_, value⟩, inLast, rfl, isText⟩ := exists_of_mem_right last.flip mem
  rw [← List.take_append_drop before.length values]
  change (Table.empty.insertAll _).get? _ = _
  rw [Table.insertAll_append]
  refine Table.get?_insertAll_of_mem (isText text rfl ▸ inLast) fun other isOther => ?_
  obtain ⟨⟨_, expr⟩, inAfter, rfl, sameText⟩ := exists_of_mem_right last isOther
  exact sameText text (only expr inAfter)

/-- A call that asks for no script by its arguments needs none by their values. -/
theorem need?_of_scriptless {args : List (String × Expr)} {values : List (String × Value)}
    (evaluated : Evaluated args values) (scriptless : CallScriptless opcode args) :
    ∀ block, StandardBlock.ofOpcode? opcode = some block →
      ∀ state, block.need? (.ofList values) state = none := by
  intro block isStandard state
  have alone := scriptless block isStandard
  cases block with
  | stop =>
      obtain ⟨option, mem, named⟩ := alone
      have found := get?_ofList_of_namedText evaluated named
      simp [StandardBlock.need?, found, Value.toText, mem]
  | call => exact alone.elim
  | times => exact alone.elim
  | forever => exact alone.elim
  | ifTrue => exact alone.elim
  | ifElse => exact alone.elim
  | untilTrue => exact alone.elim
  | whileTrue => exact alone.elim
  | param outside => exact alone.elim
  | _ => rfl

end

/-- Helper bodies are evaluated without a script. -/
def Inner.Safe (program : LoadedProgram) (inner : Inner) : Prop :=
  ∀ enter, inner = some enter → ∀ params expr, expr.Scriptless →
    StepCode.Safe program.Runs (fun _ => True) (enter params expr)

section

variable {program : LoadedProgram} {foreign : Foreign} {routine : Routine} {inner : Inner}
  {params : Table Value}

theorem helper_safe (scriptless : routine.Scriptless) (innerSafe : inner.Safe program) {name : String}
    {args : List Expr} (first : ∀ count,
      Safe program.Runs (fun _ => True) (evalFirst foreign routine inner params count args)) :
    Safe program.Runs (fun _ => True) (evalWith foreign routine inner params (.helper name args)) := by
  unfold evalWith
  split
  · exact .throw (by simp)
  · exact .throw (by simp)
  next helper enter isHelper =>
    refine .bind (first helper.params.length) fun values _ => ?_
    exact innerSafe enter rfl _ helper.body (scriptless.helpers name helper isHelper)

mutual

theorem evalWith_safe (foreignScriptless : foreign.Scriptless program)
    (scriptless : routine.Scriptless) (innerSafe : inner.Safe program) :
    (expr : Expr) → expr.Scriptless →
      Safe program.Runs (fun value => ∀ text, expr = .text text → value = .text text)
        (evalWith foreign routine inner params expr)
  | .number x, _ => by
      rw [evalWith]
      exact .pure (by simp)
  | .text s, _ => by
      rw [evalWith]
      exact .pure (by simp)
  | .bool b, _ => by
      rw [evalWith]
      exact .pure (by simp)
  | .var name, _ => by
      rw [evalWith]
      exact .bind .get fun turn _ => .pure (by simp)
  | .param name, _ => by
      rw [evalWith]
      exact .pure (by simp)
  | .helper name args, alone =>
      (helper_safe scriptless innerSafe fun count =>
        evalFirst_safe foreignScriptless scriptless innerSafe count args alone).mono (by simp)
  | .report opcode args, alone => by
      rw [evalWith]
      refine .bind (evalArgs_safe foreignScriptless scriptless innerSafe args alone.2) ?_
      intro values evaluated
      exact (reportBlock_safe foreignScriptless (need?_of_scriptless evaluated alone.1)).mono (by simp)
  | .choose cond yes no, alone => by
      rw [evalWith]
      refine .bind (evalWith_safe foreignScriptless scriptless innerSafe cond alone.1) ?_
      intro value _
      split
      · exact (evalWith_safe foreignScriptless scriptless innerSafe yes alone.2.1).mono (by simp)
      · exact (evalWith_safe foreignScriptless scriptless innerSafe no alone.2.2).mono (by simp)
  | .builtin op args, alone => by
      unfold evalWith
      split
      · refine .bind (evalOperand_safe foreignScriptless scriptless innerSafe 0 args alone) ?_
        intro value _
        split
        · refine .bind (evalOperand_safe foreignScriptless scriptless innerSafe 1 args alone) ?_
          exact fun value _ => .pure (by simp)
        · exact .pure (by simp)
      · refine .bind (evalOperand_safe foreignScriptless scriptless innerSafe 0 args alone) ?_
        intro value _
        split
        · exact .pure (by simp)
        · refine .bind (evalOperand_safe foreignScriptless scriptless innerSafe 1 args alone) ?_
          exact fun value _ => .pure (by simp)
      · refine .bind (evalList_safe foreignScriptless scriptless innerSafe args alone) fun _ _ => ?_
        exact .bind elapsed_safe fun _ _ => .pure (by simp)
      · refine .bind (evalList_safe foreignScriptless scriptless innerSafe args alone) fun _ _ => ?_
        exact .pure (by simp)

theorem evalList_safe (foreignScriptless : foreign.Scriptless program)
    (scriptless : routine.Scriptless) (innerSafe : inner.Safe program) :
    (args : List Expr) → ExprsScriptless args →
      Safe program.Runs (fun _ => True) (evalList foreign routine inner params args)
  | [], _ => by
      rw [evalList]
      exact .pure trivial
  | arg :: rest, alone => by
      rw [evalList]
      refine .bind (evalWith_safe foreignScriptless scriptless innerSafe arg alone.1) fun _ _ => ?_
      refine .bind (evalList_safe foreignScriptless scriptless innerSafe rest alone.2) fun _ _ => ?_
      exact .pure trivial

theorem evalFirst_safe (foreignScriptless : foreign.Scriptless program)
    (scriptless : routine.Scriptless) (innerSafe : inner.Safe program) (count : Nat) :
    (args : List Expr) → ExprsScriptless args →
      Safe program.Runs (fun _ => True) (evalFirst foreign routine inner params count args)
  | [], _ => by
      rw [evalFirst]
      exact .pure trivial
  | arg :: rest, alone => by
      cases count with
      | zero =>
          rw [evalFirst]
          exact .pure trivial
      | succ count =>
          rw [evalFirst]
          refine .bind (evalWith_safe foreignScriptless scriptless innerSafe arg alone.1) fun _ _ => ?_
          refine .bind (evalFirst_safe foreignScriptless scriptless innerSafe count rest alone.2)
            fun _ _ => ?_
          exact .pure trivial

theorem evalOperand_safe (foreignScriptless : foreign.Scriptless program)
    (scriptless : routine.Scriptless) (innerSafe : inner.Safe program) (index : Nat) :
    (args : List Expr) → ExprsScriptless args →
      Safe program.Runs (fun _ => True) (evalOperand foreign routine inner params index args)
  | [], _ => by
      rw [evalOperand]
      exact .pure trivial
  | arg :: rest, alone => by
      cases index with
      | zero =>
          rw [evalOperand]
          exact (evalWith_safe foreignScriptless scriptless innerSafe arg alone.1).mono (by simp)
      | succ index =>
          rw [evalOperand]
          exact evalOperand_safe foreignScriptless scriptless innerSafe index rest alone.2

theorem evalArgs_safe (foreignScriptless : foreign.Scriptless program)
    (scriptless : routine.Scriptless) (innerSafe : inner.Safe program) :
    (args : List (String × Expr)) → ArgsScriptless args →
      Safe program.Runs (Evaluated args) (evalArgs foreign routine inner params args)
  | [], _ => by
      rw [evalArgs]
      exact .pure .nil
  | (name, arg) :: rest, alone => by
      rw [evalArgs]
      refine .bind (evalWith_safe foreignScriptless scriptless innerSafe arg alone.1) fun _ isText => ?_
      refine .bind (evalArgs_safe foreignScriptless scriptless innerSafe rest alone.2) fun _ later => ?_
      exact .pure (.cons ⟨rfl, isText⟩ later)

end

variable (foreignScriptless : foreign.Scriptless program) (scriptless : routine.Scriptless)

include foreignScriptless scriptless

theorem innerEval_safe (room : Nat) : Inner.Safe program (innerEval foreign routine room) := by
  induction room with
  | zero =>
      intro enter isNone
      cases isNone
  | succ room ih =>
      intro enter isSome params expr alone
      obtain rfl := Option.some.inj isSome
      exact (evalWith_safe foreignScriptless scriptless ih expr alone).mono (by simp)

theorem eval_safe {expr : Expr} (alone : expr.Scriptless) :
    Safe program.Runs (fun _ => True) (eval foreign routine params expr) :=
  (evalWith_safe foreignScriptless scriptless (innerEval_safe foreignScriptless scriptless _) expr
    alone).mono (by simp)

theorem evalNamed_safe {args : List (String × Expr)} (alone : ArgsScriptless args) :
    Safe program.Runs (fun table => ∃ values, Evaluated args values ∧ table = .ofList values)
      (evalNamed foreign routine params args) := by
  unfold evalNamed
  refine .bind (evalArgs_safe foreignScriptless scriptless
    (innerEval_safe foreignScriptless scriptless _) args alone) fun values evaluated => ?_
  exact .pure ⟨values, evaluated, rfl⟩

theorem mapM_eval_safe {args : List Expr} (alone : ExprsScriptless args) :
    Safe program.Runs (fun _ => True) (args.mapM (eval foreign routine params)) := by
  induction args with
  | nil => exact .pure trivial
  | cons arg rest ih =>
      rw [List.mapM_cons]
      refine .bind (eval_safe foreignScriptless scriptless alone.1) fun _ _ => ?_
      exact .bind (ih alone.2) fun _ _ => .pure trivial

end

/-! ## Steps and runs -/

/-- Every routine of the program asks for no script. -/
def LoadedProgram.Scriptless (program : LoadedProgram) : Prop :=
  ∀ routine, program.Carries routine → routine.Scriptless

/-- The block that is waited for needs no script, however far it has come. -/
def PendingOp.Scriptless (op : PendingOp) : Prop :=
  ∀ block, StandardBlock.ofOpcode? op.opcode = some block →
    ∀ state, block.need? op.args state = none

structure Sequence.Scriptless (sequence : Sequence) : Prop where
  pending : ∀ op, sequence.pending = some op → op.Scriptless
  calls : ∀ call ∈ sequence.calls, call.routine.Scriptless

def Response.Scriptless : Response → Prop
  | .more sequence => sequence.Scriptless
  | .yield sequence => sequence.Scriptless
  | .done _ => True

def Step.Scriptless : Step → Prop
  | .more sequence => sequence.Scriptless
  | .rest (.suspended sequence) => sequence.Scriptless
  | .rest _ => True

namespace Sequence

variable {program : LoadedProgram} {foreign : Foreign} {call : Activation}
  {callers : List Activation}

theorem Scriptless.of_calls {calls : List Activation}
    (scriptless : ∀ call ∈ calls, call.routine.Scriptless) : (⟨none, calls⟩ : Sequence).Scriptless :=
  ⟨by simp, scriptless⟩

theorem leave_safe (value : Value) (scriptless : ∀ call ∈ callers, call.routine.Scriptless) :
    Safe program.Runs Response.Scriptless (leave value callers) := by
  unfold leave
  split
  · exact .pure trivial
  · refine .bind .get fun turn _ => ?_
    split
    · exact .pure (Scriptless.of_calls scriptless)
    · exact .pure (Scriptless.of_calls scriptless)

theorem stepPending_safe (foreignScriptless : foreign.Scriptless program) {op : PendingOp}
    (needsNone : op.Scriptless) (scriptless : ∀ call ∈ callers, call.routine.Scriptless) :
    Safe program.Runs Response.Scriptless (stepPending foreign op callers) := by
  unfold stepPending
  refine .bind (runBlock_safe foreignScriptless fun block found => needsNone block found _) ?_
  intro completion _
  refine .bind .get fun turn runs => ?_
  split
  · exact .pure (Scriptless.of_calls scriptless)
  · split
    · exact .bind (.set runs) fun _ _ => .pure ⟨by rintro op ⟨⟩; exact needsNone, scriptless⟩
    · split
      · exact .pure (Scriptless.of_calls scriptless)
      · exact .pure (Scriptless.of_calls scriptless)

/-- A call is answered with a routine of the program, or does nothing. -/
theorem resolve_safe (signature : String) :
    Safe program.Runs (fun procedure => ∀ routine, procedure = some routine → program.Carries routine)
      (resolve signature) := by
  unfold resolve
  refine .bind .get fun turn runs => ?_
  split
  next support target isSupport isTarget =>
    have mem : target.data ∈ program.targets := by
      rw [← runs.data]
      exact List.mem_map_of_mem (List.mem_of_getElem? isTarget)
    split
    next error _ => exact .throw (by simp)
    next procedure after resolved =>
      obtain ⟨serves, carries⟩ := (runs.support support isSupport).resolve mem resolved
      refine .bind (.set ⟨runs.data, ?_⟩) fun _ _ => .pure carries
      rintro later ⟨⟩
      exact serves
  next => exact .throw (by simp)

theorem loopsOn_safe (foreignScriptless : foreign.Scriptless program)
    (scriptless : call.routine.Scriptless) {loop : Option Instr}
    (alone : ∀ instr, loop = some instr → instr.Scriptless) :
    Safe program.Runs (fun _ => True) (loopsOn foreign call loop) := by
  unfold loopsOn
  split
  · exact .pure trivial
  next cond body =>
    exact .bind (eval_safe foreignScriptless scriptless (alone _ rfl)) fun _ _ => .pure trivial
  next cond body =>
    exact .bind (eval_safe foreignScriptless scriptless (alone _ rfl)) fun _ _ => .pure trivial
  · exact .pure trivial

theorem again_safe (foreignScriptless : foreign.Scriptless program)
    (scriptless : call.routine.Scriptless) (rule : Rule) :
    Safe program.Runs (fun _ => True) (again foreign call rule) := by
  cases rule with
  | once => exact .pure trivial
  | times left => exact .pure trivial
  | recheck owner index =>
      unfold again
      refine .bind (loopsOn_safe foreignScriptless scriptless fun instr found => ?_) fun _ _ =>
        .pure trivial
      exact scriptless.instr found

theorem givesUp_safe (warp : Bool) : Safe program.Runs (fun _ => True) (givesUp warp) := by
  cases warp with
  | false => exact .pure trivial
  | true => exact isOverdue_safe

theorem execute_safe (foreignScriptless : foreign.Scriptless program) (carried : program.Scriptless)
    (scriptless : call.routine.Scriptless)
    (others : ∀ call ∈ callers, call.routine.Scriptless) (owner index : Nat) {instr : Instr}
    (alone : instr.Scriptless) :
    Safe program.Runs Response.Scriptless (execute foreign call callers owner index instr) := by
  have goOn : (⟨none, call :: callers⟩ : Sequence).Scriptless :=
    .of_calls (List.forall_mem_cons.mpr ⟨scriptless, others⟩)
  have enter : ∀ frames, (⟨none, { call with frames := frames } :: callers⟩ : Sequence).Scriptless :=
    fun _ => .of_calls (List.forall_mem_cons.mpr ⟨scriptless, others⟩)
  have value : ∀ expr : Expr, expr.Scriptless →
      Safe program.Runs (fun _ => True) (eval foreign call.routine call.params expr) :=
    fun expr alone => eval_safe foreignScriptless scriptless alone
  unfold execute
  cases instr with
  | set var expr =>
      refine .bind (value expr alone) fun _ _ => ?_
      refine .bind (.update fun turn runs => ?_) fun _ _ => .pure goOn
      exact runs.of_sameProgram (.setVariable _ _ _)
  | change var amount =>
      refine .bind (value amount alone) fun _ _ => ?_
      refine .bind (.update fun turn runs => ?_) fun _ _ => .pure goOn
      exact runs.of_sameProgram (.setVariable _ _ _)
  | op opcode args =>
      refine .bind (evalNamed_safe foreignScriptless scriptless alone.2) fun table isTable => ?_
      obtain ⟨values, evaluated, rfl⟩ := isTable
      refine .pure ⟨?_, goOn.calls⟩
      rintro op ⟨⟩
      exact need?_of_scriptless evaluated alone.1
  | call signature args =>
      refine .bind (mapM_eval_safe foreignScriptless scriptless alone) fun values _ => ?_
      refine .bind (resolve_safe signature) fun procedure carries => ?_
      split
      · exact leave_safe _ goOn.calls
      next routine =>
        refine .pure (Scriptless.of_calls (List.forall_mem_cons.mpr ⟨?_, goOn.calls⟩))
        exact carried routine (carries routine rfl)
  | yield =>
      refine .bind (givesUp_safe _) fun counts _ => ?_
      cases counts with
      | true => exact .pure goOn
      | false => exact .pure goOn
  | times count body =>
      refine .bind (value count alone) fun _ _ => .pure ?_
      split
      · exact enter _
      · exact goOn
  | forever body => exact .pure (enter _)
  | whileTrue cond body =>
      refine .bind (value cond alone) fun _ _ => .pure ?_
      split
      · exact enter _
      · exact goOn
  | untilTrue cond body =>
      refine .bind (value cond alone) fun _ _ => .pure ?_
      split
      · exact goOn
      · exact enter _
  | ifElse cond yes no => exact .bind (value cond alone) fun _ _ => .pure (enter _)
  | ret result =>
      cases result with
      | none => exact leave_safe _ others
      | some expr => exact .bind (value expr alone) fun _ _ => leave_safe _ others

theorem resume_safe (foreignScriptless : foreign.Scriptless program) (carried : program.Scriptless)
    {sequence : Sequence} (scriptless : sequence.Scriptless) :
    Safe program.Runs Response.Scriptless (sequence.resume foreign) := by
  obtain ⟨pending, calls⟩ := sequence
  unfold resume
  cases pending with
  | some op => exact stepPending_safe foreignScriptless (scriptless.pending op rfl) scriptless.calls
  | none =>
      cases calls with
      | nil => exact .pure trivial
      | cons call callers =>
          obtain ⟨here, others⟩ := List.forall_mem_cons.mp scriptless.calls
          change Safe _ _ (stepCall foreign call callers)
          unfold stepCall
          split
          · exact leave_safe _ others
          next frame outer _ =>
            split
            next instr isInstr =>
              refine execute_safe foreignScriptless carried ?_ others _ _ (here.instr isInstr)
              exact here
            next =>
              refine .bind (again_safe foreignScriptless here frame.rule) fun rule _ => ?_
              split
              · exact .pure (Scriptless.of_calls (List.forall_mem_cons.mpr ⟨here, others⟩))
              · exact .pure (Scriptless.of_calls (List.forall_mem_cons.mpr ⟨here, others⟩))

theorem heed_safe {response : Response} (scriptless : response.Scriptless) :
    Safe program.Runs Step.Scriptless (heed response) := by
  cases response with
  | more sequence => exact .pure scriptless
  | done value => exact .pure trivial
  | yield sequence =>
      refine .bind .get fun turn runs => ?_
      split
      · exact .pure trivial
      · split
        · exact .bind (.set runs) fun _ _ => .pure scriptless
        · exact .pure scriptless

/-- One step of compiled code does not fail for lack of a script, and leaves compiled code that does
not either. -/
theorem step_safe (foreignScriptless : foreign.Scriptless program) (carried : program.Scriptless)
    {sequence : Sequence} (scriptless : sequence.Scriptless) :
    Safe program.Runs Step.Scriptless (sequence.step foreign) :=
  .bind (resume_safe foreignScriptless carried scriptless) fun _ => heed_safe

/-- At every moment of its turn, compiled code that needs no script still needs none. -/
theorem Visits.scriptless (foreignScriptless : foreign.Scriptless program)
    (carried : program.Scriptless) {start moment : Sequence × Turn}
    (visits : Visits foreign start moment) (scriptless : start.1.Scriptless)
    (runs : program.Runs start.2.host) : moment.1.Scriptless ∧ program.Runs moment.2.host := by
  induction visits with
  | refl => exact ⟨scriptless, runs⟩
  | tail _ steps ih =>
      obtain ⟨still, sound⟩ := step_safe foreignScriptless carried ih.1 _ ih.2
      rw [steps] at still sound
      exact ⟨sound, still⟩

/-- A run of compiled code does not fail for lack of a script, and neither does what is left of it. -/
theorem run?_safe (foreignScriptless : foreign.Scriptless program) (carried : program.Scriptless)
    {fuel : Nat} {sequence : Sequence} (scriptless : sequence.Scriptless) {turn after : Turn}
    (runs : program.Runs turn.host) {outcome : Except RunError Rest}
    (done : sequence.run? foreign fuel turn = some (outcome, after)) :
    program.Runs after.host ∧ Sound (fun rest => Step.Scriptless (.rest rest)) outcome := by
  obtain ⟨moment, visits, ends⟩ := RestsWith.of_run? done
  obtain ⟨here, before⟩ := visits.scriptless foreignScriptless carried scriptless runs
  obtain ⟨still, sound⟩ := step_safe foreignScriptless carried here _ before
  rw [ends] at still sound
  cases outcome with
  | error error => exact ⟨still, sound⟩
  | ok rest => exact ⟨still, sound⟩

/-- Compiled code that goes on in later ticks, while other scripts run in between: `later` is what one
resumption after the other has left of `sequence`. -/
inductive Resumes (foreign : Foreign) (program : LoadedProgram) (sequence : Sequence) :
    Sequence → Prop
  | start : Resumes foreign program sequence sequence
  | again {later last : Sequence} {fuel : Nat} {turn after : Turn}
      (before : Resumes foreign program sequence later) (runs : program.Runs turn.host)
      (done : later.run? foreign fuel turn = some (.ok (.suspended last), after)) :
      Resumes foreign program sequence last

theorem Scriptless.of_resumes (foreignScriptless : foreign.Scriptless program)
    (carried : program.Scriptless) {sequence later : Sequence} (scriptless : sequence.Scriptless)
    (resumes : Resumes foreign program sequence later) : later.Scriptless := by
  induction resumes with
  | start => exact scriptless
  | again _ runs done ih => exact (run?_safe foreignScriptless carried ih runs done).2

end Sequence

end StepCode
