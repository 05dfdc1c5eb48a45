import StepCode.Proofs.Host.Reachable
import StepCode.Proofs.Lowering.Strays
import StepCode.Proofs.Rebuild.Calls
import StepCode.Proofs.Routine.Driving
import StepCode.Proofs.Routine.Flattening

/-!
# Accepted units run without a script

A host that has loaded a rebuilt program runs the step code of its units.  If lowering comes to no
stray in any unit that it accepts, no such run fails because compiled code lacks a script.  Strays are
accepted all the same, and their scripts fail once they are compiled.
-/

namespace StepCode

open Lowering

/-! ## Loading -/

namespace Routine

/-- No statement of the bodies asks for a script. -/
def BodiesScriptless (bodies : List (List Instr)) : Prop :=
  ∀ body ∈ bodies, ∀ instr ∈ body, instr.Scriptless

theorem reserve_scriptless {fill : List (List Instr) → List Instr × List (List Instr)}
    (filled : ∀ bodies, BodiesScriptless bodies →
      (∀ instr ∈ (fill bodies).1, instr.Scriptless) ∧ BodiesScriptless (fill bodies).2)
    {bodies : List (List Instr)} (alone : BodiesScriptless bodies) :
    BodiesScriptless (reserve fill bodies).2 :=
  reserve_all filled alone

mutual

/-- Numbering the bodies of statements keeps what they call. -/
theorem flatten_scriptless : (stmts : List Stmt) → BodyScriptless stmts →
    ∀ bodies, BodiesScriptless bodies →
      (∀ instr ∈ (flatten stmts bodies).1, instr.Scriptless) ∧
        BodiesScriptless (flatten stmts bodies).2
  | [], _ => fun bodies alone => by
      rw [flatten]
      exact ⟨by simp, alone⟩
  | stmt :: rest, scriptless => fun bodies alone => by
      obtain ⟨here, bodies'⟩ := flattenStmt_scriptless stmt scriptless.1 bodies alone
      obtain ⟨later, bodies''⟩ := flatten_scriptless rest scriptless.2 _ bodies'
      rw [flatten]
      exact ⟨List.forall_mem_cons.mpr ⟨here, later⟩, bodies''⟩

theorem flattenStmt_scriptless : (stmt : Stmt) → stmt.Scriptless →
    ∀ bodies, BodiesScriptless bodies →
      (flattenStmt stmt bodies).1.Scriptless ∧ BodiesScriptless (flattenStmt stmt bodies).2
  | .set _ _, scriptless => fun _ alone => ⟨scriptless, alone⟩
  | .change _ _, scriptless => fun _ alone => ⟨scriptless, alone⟩
  | .op _ _, scriptless => fun _ alone => ⟨scriptless, alone⟩
  | .call _ _, scriptless => fun _ alone => ⟨scriptless, alone⟩
  | .yield, _ => fun _ alone => ⟨trivial, alone⟩
  | .times _ body, scriptless => fun _ alone =>
      ⟨scriptless.1, reserve_scriptless (flatten_scriptless body scriptless.2) alone⟩
  | .forever body, scriptless => fun _ alone =>
      ⟨trivial, reserve_scriptless (flatten_scriptless body scriptless) alone⟩
  | .whileTrue _ body, scriptless => fun _ alone =>
      ⟨scriptless.1, reserve_scriptless (flatten_scriptless body scriptless.2) alone⟩
  | .untilTrue _ body, scriptless => fun _ alone =>
      ⟨scriptless.1, reserve_scriptless (flatten_scriptless body scriptless.2) alone⟩
  | .ifElse _ yes no, scriptless => fun _ alone =>
      ⟨scriptless.1, reserve_scriptless (flatten_scriptless no scriptless.2.2)
        (reserve_scriptless (flatten_scriptless yes scriptless.2.1) alone)⟩
  | .ret none, _ => fun _ alone => ⟨trivial, alone⟩
  | .ret (some _), scriptless => fun _ alone => ⟨scriptless, alone⟩

end

/-- A routine asks for no script if its source does not and the helpers it may call do not. -/
theorem scriptless_of_load {source : String} {table : Table Helper} {script : Script}
    {routine : Routine} (parsed : Script.parse source = .ok script)
    (loaded : load source table = .ok routine) (scriptless : BodyScriptless script.body)
    (helpers : ∀ name helper, table.get? name = some helper → helper.body.Scriptless) :
    routine.Scriptless := by
  have linking := linking_of_load parsed loaded
  obtain ⟨linkedHelpers, -, rfl⟩ := (load_eq_ok parsed).mp loaded
  obtain ⟨entry, others⟩ := flatten_scriptless script.body scriptless [[]] (by simp [BodiesScriptless])
  refine ⟨fun body mem => ?_, fun name helper found => ?_⟩
  · rcases List.mem_or_eq_of_mem_set mem with before | rfl
    · exact others body before
    · exact entry
  · exact helpers name helper (linking.sound name helper found).1

end Routine

theorem mem_of_approvedHelpers {helpers : List Helper} {name : String} {helper : Helper}
    (found : (approvedHelpers helpers).get? name = some helper) : helper ∈ helpers := by
  have all : ∀ (helpers : List Helper) (table : Table Helper),
      (helpers.foldl (fun table helper =>
        if table.contains helper.name then table else table.insert helper.name helper)
        table).get? name = some helper → helper ∈ helpers ∨ table.get? name = some helper := by
    intro helpers
    induction helpers with
    | nil => exact fun table found => .inr found
    | cons first rest ih =>
        intro table found
        rcases ih _ found with later | before
        · exact .inl (List.mem_cons_of_mem _ later)
        · dsimp only at before
          split at before
          · exact .inr before
          · rw [Table.get?_insert] at before
            split at before
            · exact .inl (by simp [Option.some.inj before])
            · exact .inr before
  simpa using all helpers .empty found

theorem shipped_scriptless (name : String) (helper : Helper)
    (found : (approvedHelpers Helper.shipped).get? name = some helper) : helper.body.Scriptless := by
  have mem := mem_of_approvedHelpers found
  simp only [Helper.shipped, List.mem_cons, List.not_mem_nil, or_false] at mem
  rcases mem with rfl | rfl | rfl | rfl | rfl <;>
    simp [Helper.ofOrder, Helper.isStuck, Helper.modulo, Expr.Scriptless, ExprsScriptless]

/-! ## The units of a rebuilt program -/

section

variable {newId : List String → String} {settings : Settings} {source rebuilt : Project}
  {report : RebuildReport}

/-- A rebuilt program as a host loads it. -/
def Project.loaded (rebuilt : Project) : LoadedProgram :=
  ⟨rebuilt.targets, approvedHelpers Helper.shipped⟩

/-- The target holds no marker. -/
def Target.Unmarked (target : Target) : Prop :=
  ∀ id block, target.block? id = some block → block.opcode ≠ markerOpcode

/-- Lowering comes to no stray in any body that has step code. -/
def Target.Regular (target : Target) : Prop :=
  ∀ body ∈ target.bodies, (∃ code, chain body.place body.first = .ok code) →
    ∀ node, Reaches body.place body.first node → ¬ node.Stray target

theorem Target.Lowers.scriptless {target : Target} {top : String} {script : Script}
    (lowers : target.Lowers top script) (regular : target.Regular) : BodyScriptless script.body := by
  cases lowers with
  | hat mem lowered =>
      have isBody := List.mem_append_left (target.definitions.filterMap target.definitionBody?)
        (List.mem_map_of_mem (f := fun hat => target.hatBody hat.2) mem)
      exact chain_scriptless (regular _ isBody ⟨_, lowered⟩) lowered
  | definition mem prototype lowered =>
      refine chain_scriptless (regular ⟨⟨target, _, _⟩, _⟩ ?_ ⟨_, lowered⟩) lowered
      refine List.mem_append_right _ (List.mem_filterMap.mpr ⟨_, mem, ?_⟩)
      simp [Target.definitionBody?, prototype]

theorem Target.markerSource?_marker (target : Target) (parent text : String) :
    target.markerSource? (.marker parent text) = some text := rfl

theorem Target.markerSource?_placeholder (target : Target) (opcode : String) :
    target.markerSource? (.placeholder opcode) = none := rfl

/-- Whatever a marker of the rebuilt program carries was planted for an accepted unit. -/
theorem Project.exists_unit_of_carries
    (done : source.precompile? newId settings = some (rebuilt, report))
    (unmarked : ∀ target ∈ source.targets, target.Unmarked) {routine : Routine}
    (carries : rebuilt.loaded.Carries routine) :
    ∃ target ∈ source.targets, ∃ results compiled top text, target.compile? = some results ∧
      compiled ∈ results.units ∧ compiled.plan settings target = .ok (top, text) ∧
      Routine.load text (approvedHelpers Helper.shipped) = .ok routine := by
  obtain ⟨after, mem, id, marker, text, found, opcode, shown, loads⟩ := carries
  obtain ⟨index, isAfter⟩ := List.mem_iff_getElem?.mp mem
  obtain ⟨before, results, isBefore, isRebuilt⟩ := Project.exists_rebuilt_target done isAfter
  have inSource := List.mem_of_getElem? isBefore
  rcases isRebuilt.get?_cases (Target.block?_eq_some.mp found) with ⟨_, placeholder⟩ |
    ⟨compiled, isUnit, origin⟩
  · rw [BlockEntry.block.inj placeholder, Target.markerSource?_placeholder] at shown
    cases shown
  · generalize same : BlockEntry.block marker = entry at origin
    cases origin with
    | kept _ _ stored =>
        exact absurd opcode (unmarked before inSource id marker
          (Target.block?_eq_some.mpr (same ▸ stored)))
    | held _ _ _ stored =>
        exact absurd opcode (unmarked before inSource id marker
          (Target.block?_eq_some.mpr (same ▸ stored)))
    | @moved top _ cursor isTop plan =>
        obtain ⟨_, -, isBlock, -⟩ := CompiledUnit.plan_eq_ok.mp plan
        have sameOpcode : marker.opcode = top.opcode := by
          obtain ⟨x, y, isMoved⟩ := Layout.exists_place_eq settings.grid cursor top
          rw [BlockEntry.block.inj same, isMoved]
        exact absurd (sameOpcode ▸ opcode) (unmarked before inSource compiled.top top isBlock)
    | @planted top planted plan behind =>
        obtain rfl := BlockEntry.block.inj same
        rw [Target.markerSource?_marker] at shown
        obtain rfl := Option.some.inj shown
        exact ⟨before, inSource, results, compiled, top, planted, isRebuilt.outcomes, isUnit, plan, loads⟩

theorem Project.loaded_scriptless (done : source.precompile? newId settings = some (rebuilt, report))
    (numbers : ∀ target ∈ source.targets, ∀ x ∈ target.literalNumbers, x.isFinite = true)
    (unmarked : ∀ target ∈ source.targets, target.Unmarked)
    (regular : ∀ target ∈ source.targets, target.Regular) : rebuilt.loaded.Scriptless := by
  intro routine carries
  obtain ⟨target, mem, results, compiled, top, text, compiledAll, isUnit, plan, loads⟩ :=
    Project.exists_unit_of_carries done unmarked carries
  obtain ⟨script, _, lowers, parsed, -⟩ := loadsAs_of_plan compiledAll (numbers target mem) isUnit plan
  exact Routine.scriptless_of_load parsed loads (lowers.scriptless (regular target mem))
    shipped_scriptless

/-- A host that has just loaded a rebuilt program runs it. -/
theorem Host.exists_runs (done : source.precompile? newId settings = some (rebuilt, report)) :
    ∃ host, Host.load rebuilt true = .ok host ∧ rebuilt.loaded.Runs host := by
  obtain ⟨host, loaded, isSupport⟩ := Host.load_precompiled done
  refine ⟨host, loaded, Host.data_of_load loaded, fun support found => ?_⟩
  rw [isSupport] at found
  obtain rfl := Option.some.inj found
  exact ⟨rfl, by simp [Support.ofBootstrap, Cache.get?, Cache.empty],
    by simp [Support.ofBootstrap, Cache.get?, Cache.empty]⟩

end

theorem CompiledUnit.exists_body {compiled : CompiledUnit} (succeeded : compiled.succeeded = true) :
    ∃ body, compiled.result = .ok body := by
  unfold CompiledUnit.succeeded at succeeded
  cases outcome : compiled.result with
  | error reason => simp [outcome, Except.toBool] at succeeded
  | ok body => exact ⟨body, rfl⟩

/-- The step code of accepted units needs no script.  Where lowering comes to no stray and the program
brings no markers of its own, the code of every accepted unit is loaded with its marker, and however
often it is resumed, whatever the host has come to meanwhile, it does not fail for lack of a branch, a
procedure, a parameter or a script to leave.  All this holds as long as the blocks of foreign
extensions ask for no script either. -/
theorem accepted_units_need_no_script {newId : List String → String} {settings : Settings}
    {source rebuilt : Project} {report : RebuildReport}
    (done : source.precompile? newId settings = some (rebuilt, report))
    (numbers : ∀ target ∈ source.targets, ∀ x ∈ target.literalNumbers, x.isFinite = true)
    (unmarked : ∀ target ∈ source.targets, target.Unmarked)
    (regular : ∀ target ∈ source.targets, target.Regular) {foreign : Foreign}
    (foreignScriptless : foreign.Scriptless rebuilt.loaded) :
    (∃ host, Host.load rebuilt true = .ok host ∧ rebuilt.loaded.Runs host) ∧
    ∀ target ∈ source.targets, ∀ results, target.compile? = some results →
      ∀ compiled ∈ results.units, ∀ body, compiled.result = .ok body →
      ∃ text routine, markerText settings body = .ok text ∧
        Routine.load text rebuilt.loaded.helpers = .ok routine ∧
        ∀ params warp later, Sequence.Resumes foreign rebuilt.loaded
          ⟨none, [.enter routine params warp]⟩ later →
        ∀ fuel turn outcome after, rebuilt.loaded.Runs turn.host →
          later.run? foreign fuel turn = some (outcome, after) →
          rebuilt.loaded.Runs after.host ∧ ∀ need, outcome ≠ .error (.unsupported need) := by
  refine ⟨Host.exists_runs done, ?_⟩
  intro target mem results compiledAll compiled isUnit body accepted
  obtain ⟨script, lowers, carries⟩ := Target.exists_carries compiledAll isUnit accepted
  have sound := lowers.sound (numbers target mem)
  obtain ⟨text, isText, parsed⟩ := parse_markerText settings sound carries
  obtain ⟨routine, loads⟩ := Routine.exists_load sound parsed
  have scriptless := Routine.scriptless_of_load parsed loads (lowers.scriptless (regular target mem))
    shipped_scriptless
  have carried := Project.loaded_scriptless done numbers unmarked regular
  refine ⟨text, routine, isText, loads, ?_⟩
  intro params warp later resumes fuel turn outcome after runs ran
  have start : (⟨none, [.enter routine params warp]⟩ : Sequence).Scriptless :=
    .of_calls (by simpa [Activation.enter] using scriptless)
  have alone := start.of_resumes foreignScriptless carried resumes
  obtain ⟨still, sound⟩ := Sequence.run?_safe foreignScriptless carried alone runs ran
  refine ⟨still, fun need failed => ?_⟩
  rw [failed] at sound
  exact sound need rfl

/-- A flag starts a script that begins with the block `a`. -/
def flagTarget (blocks : List (String × Block)) : Target where
  isStage := true
  name := "Stage"
  vars := .empty
  blocks := ⟨("h", .block { Block.bare "event_whenflagclicked" with next := some "a", topLevel := true })
    :: blocks.map fun entry => (entry.1, .block entry.2)⟩
  comments := .empty
  extra := .empty

def stopBlock (option : String) : Block :=
  { Block.bare stopOpcode with fields := ⟨[("STOP_OPTION", .array [.text option])]⟩ }

/-- A script that says something three times and then stops all scripts. -/
def greetingTarget : Target :=
  flagTarget [
    ("a", { Block.bare "control_repeat" with
      parent := some "h"
      next := some "c"
      inputs := ⟨[("TIMES", .array [.int 1, .array [.int 6, .text "3"]]),
        ("SUBSTACK", .array [.int 2, .text "b"])]⟩ }),
    ("b", { Block.bare "looks_say" with
      parent := some "a"
      inputs := ⟨[("MESSAGE", .array [.int 1, .array [.int 10, .text "hello"]])]⟩ }),
    ("c", { stopBlock "all" with parent := some "a" })]

/-- There are no strays in a target without stray statements whose slots hold no stray reporters. -/
theorem Target.regular_of_slots {target : Target}
    (statements : ∀ entry ∈ target.blockList, entry.2.strayStatement = false)
    (reporters : ∀ entry ∈ target.blockList, ∀ name ∈ reporterSlots entry.2 ++ statementSlots entry.2,
      ∀ inner ∈ entry.2.inputBlock? name, ∀ block ∈ target.block? inner,
        block.strayReporter = false) : target.Regular := by
  have held : ∀ id name inner block reporter, target.block? id = some block →
      name ∈ reporterSlots block ++ statementSlots block → block.inputBlock? name = some inner →
      target.block? inner = some reporter → reporter.strayReporter = false :=
    fun id name inner block reporter found mem isInner exist =>
      reporters (id, block) (Target.mem_blockList_of_block? found) name mem inner isInner reporter exist
  rintro body isBody - node ⟨id, -, reach⟩ stray
  have isTarget : body.place.target = target := Target.target_of_mem_bodies isBody
  cases node with
  | statement other =>
      obtain ⟨block, found, isStray⟩ := stray
      exact Bool.eq_false_iff.mp (statements _ (Target.mem_blockList_of_block? found)) isStray
  | reporter other =>
      obtain ⟨block, found, isStray⟩ := stray
      rcases reach.cases_tail with same | ⟨before, -, opens⟩
      · cases same
      · refine Bool.eq_false_iff.mp ?_ isStray
        cases opens with
        | reporterSlot isBlock slots _ isInner _ =>
            exact held _ _ _ _ _ (isTarget ▸ isBlock) (by simp [slots]) isInner found
        | statementSlot isBlock slots _ isInner _ =>
            exact held _ _ _ _ _ (isTarget ▸ isBlock) (by simp [slots]) isInner found

/-- No extension brings blocks of its own. -/
def noForeign : Foreign := fun _ _ _ => return .empty

/-- The greeting is compiled, and its step code never fails for lack of a script. -/
theorem accepted_greeting_needs_no_script :
    greetingTarget.Unmarked ∧ greetingTarget.Regular ∧
    ∃ rebuilt report results compiled body text routine,
      greetingTarget.program.precompile? (freshId 0) .default = some (rebuilt, report) ∧
      noForeign.Scriptless rebuilt.loaded ∧ greetingTarget.compile? = some results ∧
      compiled ∈ results.units ∧ compiled.result = .ok body ∧ markerText .default body = .ok text ∧
      Routine.load text rebuilt.loaded.helpers = .ok routine ∧
      ∀ params warp fuel turn outcome after, rebuilt.loaded.Runs turn.host →
        Sequence.run? noForeign fuel ⟨none, [.enter routine params warp]⟩ turn = some (outcome, after) →
        ∀ need, outcome ≠ .error (.unsupported need) := by
  have unmarked : greetingTarget.Unmarked := by
    have all : ∀ entry ∈ greetingTarget.blockList, entry.2.opcode ≠ markerOpcode := by decide
    exact fun id block found => all _ (Target.mem_blockList_of_block? found)
  have regular : greetingTarget.Regular :=
    Target.regular_of_slots (by decide) (by decide)
  have ends : (greetingTarget.program.precompile? (freshId 0) .default).isSome = true := by
    decide
  obtain ⟨⟨rebuilt, report⟩, done⟩ := Option.isSome_iff_exists.mp ends
  have foreignScriptless : noForeign.Scriptless rebuilt.loaded := fun _ _ _ _ _ runs => ⟨runs, trivial⟩
  have accepted : greetingTarget.compile?.map (fun results => results.units.map fun compiled =>
      compiled.succeeded) = some [true] := by decide
  obtain ⟨results, compiledAll, units⟩ := Option.map_eq_some_iff.mp accepted
  obtain ⟨compiled, isUnits, succeeded⟩ := List.map_eq_singleton_iff.mp units
  have isUnit : compiled ∈ results.units := by simp [isUnits]
  obtain ⟨body, isBody⟩ := CompiledUnit.exists_body succeeded
  have only : ∀ target ∈ greetingTarget.program.targets, target = greetingTarget :=
    fun target mem => List.mem_singleton.mp mem
  obtain ⟨-, safe⟩ := accepted_units_need_no_script done (by decide)
    (fun target mem => only target mem ▸ unmarked) (fun target mem => only target mem ▸ regular)
    foreignScriptless
  obtain ⟨text, routine, isText, loads, never⟩ :=
    safe greetingTarget (List.mem_singleton.mpr rfl) results compiledAll compiled isUnit body isBody
  exact ⟨unmarked, regular, rebuilt, report, results, compiled, body, text, routine, done,
    foreignScriptless, compiledAll, isUnit, isBody, isText, loads,
    fun params warp fuel turn outcome after runs ran =>
      (never params warp _ .start fuel turn outcome after runs ran).2⟩

/-! ## Strays that are accepted -/

/-- The script of `hat` is accepted, but its step code fails for lack of a script, wherever it runs. -/
def Target.FailsCompiled (target : Target) (hat : String) (need : BlockNeed) : Prop :=
  ∃ results compiled body text routine rebuilt report host, target.compile? = some results ∧
    compiled ∈ results.units ∧ compiled.top = hat ∧ compiled.result = .ok body ∧
    markerText .default body = .ok text ∧
    target.program.precompile? (freshId 0) .default = some (rebuilt, report) ∧
    Host.load rebuilt true = .ok host ∧ rebuilt.loaded.Runs host ∧
    Routine.load text rebuilt.loaded.helpers = .ok routine ∧
    ∀ foreign params warp turn, ∃ fuel after,
      Sequence.run? foreign fuel ⟨none, [.enter routine params warp]⟩ turn =
        some (.error (.unsupported need), after)

theorem Target.failsCompiled {blocks : List (String × Block)} {need : BlockNeed} (opcode : String)
    (args : List (String × Expr))
    (noDefinitions : (flagTarget blocks).definitions = [])
    (code : ∀ entry ∈ (flagTarget blocks).hats,
      chain ⟨flagTarget blocks, [], false⟩ entry.2.next = .ok [.op opcode args])
    (fails : ∀ foreign routine params warp turn, routine.instr? Routine.entry 0 = some (.op opcode args) →
      ∃ fuel after, Sequence.run? foreign fuel ⟨none, [.enter routine params warp]⟩ turn =
        some (.error (.unsupported need), after))
    (ends : (flagTarget blocks).compile?.map (fun results => results.units.map fun compiled =>
        (compiled.top, compiled.succeeded)) = some [("h", true)] ∧
      ((flagTarget blocks).program.precompile? (freshId 0) .default).isSome = true ∧
      ∀ x ∈ (flagTarget blocks).literalNumbers, x.isFinite = true) :
    (flagTarget blocks).FailsCompiled "h" need := by
  obtain ⟨accepted, ends, numbers⟩ := ends
  obtain ⟨results, compiledAll, units⟩ := Option.map_eq_some_iff.mp accepted
  obtain ⟨compiled, isUnits, isPair⟩ := List.map_eq_singleton_iff.mp units
  obtain ⟨isTop, succeeded⟩ := Prod.mk.inj isPair
  have isUnit : compiled ∈ results.units := by simp [isUnits]
  obtain ⟨body, isBody⟩ := CompiledUnit.exists_body succeeded
  obtain ⟨⟨rebuilt, report⟩, done⟩ := Option.isSome_iff_exists.mp ends
  obtain ⟨host, loaded, runs⟩ := Host.exists_runs done
  obtain ⟨script, lowers, carries⟩ := Target.exists_carries compiledAll isUnit isBody
  have sound := lowers.sound numbers
  obtain ⟨text, isText, parsed⟩ := parse_markerText .default sound carries
  obtain ⟨routine, loads⟩ := Routine.exists_load sound parsed
  have isCode : script.body = [.op opcode args] := by
    generalize compiled.top = top at lowers
    cases lowers with
    | hat mem lowered => exact Except.ok.inj (lowered.symm.trans (code _ mem))
    | definition mem => simp [noDefinitions] at mem
  have isInstr : routine.instr? Routine.entry 0 = some (.op opcode args) := by
    have holds := routine.holds
    rw [Routine.script_of_load parsed loads, isCode, Routine.Holds] at holds
    obtain ⟨instr, others, isEntry, isInstr, -⟩ := holds
    rw [Routine.HoldsStmt] at isInstr
    rw [Routine.instr?, isEntry, isInstr]
    rfl
  exact ⟨results, compiled, body, text, routine, rebuilt, report, host, compiledAll, isUnit, isTop, isBody,
    isText, done, loaded, runs, loads, fun foreign params warp turn =>
      fails foreign routine params warp turn isInstr⟩

/-- A block that says what a reporter in its slot reports. -/
def reportingBlocks (reporter : Block) : List (String × Block) :=
  [("a", { Block.bare "looks_say" with
      parent := some "h"
      inputs := ⟨[("MESSAGE", .array [.int 2, .text "r"])]⟩ }),
    ("r", { reporter with parent := some "a" })]

/-- A stop block that does not say what to stop. -/
def strayStop : Target := flagTarget [("a", { stopBlock "nothing" with parent := some "h" })]

/-- A parameter where a statement is expected. -/
def strayParameter : Target :=
  flagTarget [("a", { Block.bare "argument_reporter_boolean" with parent := some "h" })]

/-- Statements where a value is expected. -/
def strayLoop : Target := flagTarget (reportingBlocks (Block.bare "control_forever"))

def strayCall : Target := flagTarget (reportingBlocks (Block.bare callOpcode))

def strayReturn : Target := flagTarget (reportingBlocks (stopBlock "this script"))

theorem Sequence.run?_succ (foreign : Foreign) (fuel : Nat) (sequence : Sequence) (turn : Turn) :
    sequence.run? foreign (fuel + 1) turn =
      match (sequence.step foreign).run.run turn with
      | (.error error, turn) => some (.error error, turn)
      | (.ok (.rest rest), turn) => some (.ok rest, turn)
      | (.ok (.more sequence), turn) => run? foreign fuel sequence turn := rfl

/-- Where the entry of a routine begins with a call of a block, running it starts with this call. -/
theorem Sequence.run?_enter_op {foreign : Foreign} {routine : Routine} {params : Table Value}
    {warp : Bool} {opcode : String} {args : List (String × Expr)}
    (isInstr : routine.instr? Routine.entry 0 = some (.op opcode args)) (fuel : Nat) (turn : Turn) :
    Sequence.run? foreign (fuel + 1) ⟨none, [.enter routine params warp]⟩ turn =
      match (execute foreign ⟨routine, params, warp, [⟨Routine.entry, 1, .once⟩]⟩ [] Routine.entry 0
        (.op opcode args) >>= heed).run.run turn with
      | (.error error, turn) => some (.error error, turn)
      | (.ok (.rest rest), turn) => some (.ok rest, turn)
      | (.ok (.more sequence), turn) => run? foreign fuel sequence turn := by
  have isFrames : (Activation.enter routine params warp).frames = [⟨Routine.entry, 0, .once⟩] := rfl
  have isStep : Sequence.step foreign ⟨none, [.enter routine params warp]⟩ = _ :=
    Sequence.step_execute isFrames isInstr
  rewrite [Sequence.run?_succ, isStep]
  rfl

/-- Strays are accepted, as statements and as reporters, and fail once they are compiled. -/
theorem strays_fail_once_compiled :
    strayStop.FailsCompiled "h" .stopScript ∧ strayParameter.FailsCompiled "h" .param ∧
      strayLoop.FailsCompiled "h" .branch ∧ strayCall.FailsCompiled "h" .call ∧
      strayReturn.FailsCompiled "h" .stopScript := by
  refine ⟨?_, ?_, ?_, ?_, ?_⟩
  · refine Target.failsCompiled stopOpcode [("STOP_OPTION", .text "nothing")] rfl (fun entry mem => ?_)
      (fun foreign routine params warp turn isInstr => ?_) (by decide)
    · obtain rfl := List.mem_singleton.mp mem
      rfl
    · exact ⟨2, _, Sequence.run?_enter_op isInstr 1 turn⟩
  · refine Target.failsCompiled "argument_reporter_boolean" [] rfl (fun entry mem => ?_)
      (fun foreign routine params warp turn isInstr => ?_) (by decide)
    · obtain rfl := List.mem_singleton.mp mem
      rfl
    · exact ⟨2, _, Sequence.run?_enter_op isInstr 1 turn⟩
  · refine Target.failsCompiled "looks_say" [("MESSAGE", .report "control_forever" [])] rfl
      (fun entry mem => ?_) (fun foreign routine params warp turn isInstr => ?_) (by decide)
    · obtain rfl := List.mem_singleton.mp mem
      rfl
    · exact ⟨1, _, Sequence.run?_enter_op isInstr 0 turn⟩
  · refine Target.failsCompiled "looks_say" [("MESSAGE", .report callOpcode [])] rfl
      (fun entry mem => ?_) (fun foreign routine params warp turn isInstr => ?_) (by decide)
    · obtain rfl := List.mem_singleton.mp mem
      rfl
    · exact ⟨1, _, Sequence.run?_enter_op isInstr 0 turn⟩
  · refine Target.failsCompiled "looks_say"
      [("MESSAGE", .report stopOpcode [("STOP_OPTION", .text "this script")])] rfl
      (fun entry mem => ?_) (fun foreign routine params warp turn isInstr => ?_) (by decide)
    · obtain rfl := List.mem_singleton.mp mem
      rfl
    · exact ⟨1, _, Sequence.run?_enter_op isInstr 0 turn⟩

end StepCode
