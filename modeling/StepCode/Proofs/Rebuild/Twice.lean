import StepCode.Proofs.Host.Suspending
import StepCode.Proofs.Rebuild.Contents
import StepCode.Proofs.Routine.Scriptless

/-!
# Rebuilding a program twice

No statement has a form of its own for markers, so a rebuild takes the marker of an earlier one for a
block that step code calls by its opcode.  The new marker stands where the old one stood and carries a
call of the marker block with the old text.  The marker block refuses such a call, for it can only be
run in a script.
-/

namespace StepCode

/-- A call of the marker block with `text`. -/
def markerCall (text : String) : List Stmt :=
  [.op markerOpcode [(markerInput, .text text)]]

theorem markerCall_sound (text : String) : BodySound (markerCall text) where
  wellFormed := ⟨⟨trivial, trivial⟩, trivial⟩
  shipped := by simp [markerCall, helperCallsBody, Stmt.helperCalls, helperCallsArgs, Expr.helperCalls]

/-! ## Lowering a marker -/

namespace Lowering

variable {place : Place} {id parent text : String}

/-- Lowering knows no marker: it becomes a call of the marker block.  Its slot does not make it a block
with substacks. -/
theorem nested_marker (place : Place) (depth : Nat) (parent text : String) :
    nested place (depth + 1) (.marker parent text) =
      .ok (.op markerOpcode [(markerInput, .text text)]) := by
  have form : StatementForm.ofOpcode (Block.marker parent text).opcode = .block := by rfl
  have noStack : (Block.marker parent text).inputs.keys.any (Text.startsWith · "SUBSTACK") = false :=
    show [markerInput].any (Text.startsWith · "SUBSTACK") = false by decide
  have filled : arguments (input place (reported place depth) (.marker parent text))
      (.marker parent text) = .ok [(markerInput, .text text)] := rfl
  exact statement_eq_ok.mpr (.op (.inl form) noStack filled)

/-- A chain that consists of a marker calls the marker block. -/
theorem chain_marker (found : place.target.block? id = some (.marker parent text)) :
    chain place (some id) = .ok (markerCall text) := by
  have inKeys := Table.mem_keys_of_get? (Target.block?_eq_some.mp found)
  obtain ⟨size, isSize⟩ : ∃ size, place.target.blocks.size = size + 1 := by
    refine Nat.exists_eq_succ_of_ne_zero fun empty => ?_
    rw [Table.keys, List.eq_nil_of_length_eq_zero empty] at inKeys
    exact List.not_mem_nil inKeys
  rw [chain, chainWithin, isSize, Nat.mul_succ]
  exact follow_eq_ok.mpr (.cons found (nested_marker place _ parent text) .nil)

end Lowering

/-! ## The units of a rebuilt target -/

namespace Target

variable {target : Target} {results : TargetResults} {top id : String} {hat : Block} {script : Script}

/-- There is a unit for every hat. -/
theorem exists_unit_of_hat (compiledAll : target.compile? = some results)
    (distinct : target.blocks.keys.Nodup) (mem : (id, hat) ∈ target.hats) :
    ∃ compiled ∈ results.units, CompiledUnit.ofLowered? id (target.lowerHat hat) = some compiled := by
  obtain ⟨hats, compiledHats, rest⟩ := Option.bind_eq_some_iff.mp compiledAll
  obtain ⟨procedures, -, isResults⟩ := Option.bind_eq_some_iff.mp rest
  obtain rfl := Option.some.inj isResults
  have outcomes := mapM_eq_some.mp compiledHats
  obtain ⟨_, inHats, outcome⟩ := exists_of_mem_right outcomes.flip mem
  obtain ⟨compiled, lowered, rfl⟩ : ∃ compiled,
      CompiledUnit.ofLowered? id (target.lowerHat hat) = some compiled ∧ (id, compiled) = _ := by
    simpa [Option.bind_eq_some_iff] using outcome
  have only : ∀ other, (id, other) ∈ hats → other = compiled := by
    intro other otherMem
    obtain ⟨⟨_, block⟩, inList, otherOutcome⟩ := exists_of_mem_right outcomes otherMem
    obtain ⟨_, otherLowered, isPair⟩ := Option.bind_eq_some_iff.mp otherOutcome
    obtain ⟨rfl, rfl⟩ := Prod.mk.inj (Option.some.inj isPair)
    have first := Target.block?_of_mem_blockList distinct (List.mem_filter.mp mem).1
    have second := Target.block?_of_mem_blockList distinct (List.mem_filter.mp inList).1
    obtain rfl := Option.some.inj (first.symm.trans second)
    exact Option.some.inj (otherLowered.symm.trans lowered)
  have entered : (Table.ofList hats).get? id = some compiled := Table.get?_insertAll_of_mem inHats only
  have inValues := List.mem_map_of_mem (f := Prod.snd) (Table.mem_entries_of_get? entered)
  exact ⟨compiled, List.mem_append_left _ inValues, lowered⟩

/-- There is a unit for every definition. -/
theorem exists_unit_of_definition (compiledAll : target.compile? = some results)
    {definition : Definition} (mem : definition ∈ target.definitions) :
    ∃ compiled ∈ results.units,
      CompiledUnit.ofLowered? definition.id (target.lowerDefinition definition) = some compiled := by
  obtain ⟨hats, -, rest⟩ := Option.bind_eq_some_iff.mp compiledAll
  obtain ⟨procedures, compiledProcedures, isResults⟩ := Option.bind_eq_some_iff.mp rest
  obtain rfl := Option.some.inj isResults
  obtain ⟨compiled, inProcedures, outcome⟩ :=
    exists_of_mem_right (mapM_eq_some.mp compiledProcedures).flip mem
  exact ⟨compiled, List.mem_append_right _ inProcedures, outcome⟩

/-- What has step code has a unit with this step code. -/
theorem Lowers.exists_unit (lowers : target.Lowers top script)
    (compiledAll : target.compile? = some results) (distinct : target.blocks.keys.Nodup) :
    ∃ compiled ∈ results.units, compiled.top = top ∧
      ∃ body, compiled.result = .ok body ∧ body.text = script.print := by
  cases lowers with
  | @hat id hat body mem lowered =>
      obtain ⟨compiled, isUnit, outcome⟩ := exists_unit_of_hat compiledAll distinct mem
      have isBody : target.lowerHat hat = .ok (.function ⟨[], body⟩) := by
        rw [lowerHat, lowered]
        rfl
      rw [isBody] at outcome
      obtain rfl := Option.some.inj outcome
      exact ⟨_, isUnit, rfl, _, rfl, rfl⟩
  | @definition definition mutation body mem prototype lowered =>
      obtain ⟨compiled, isUnit, outcome⟩ := exists_unit_of_definition compiledAll mem
      have isBody : target.lowerDefinition definition =
          .ok (.source (Script.print ⟨mutation.names, body⟩)) := by
        rw [lowerDefinition, prototype]
        change Lowering.chain _ _ >>= _ = _
        rw [lowered]
        rfl
      rw [isBody] at outcome
      obtain rfl := Option.some.inj outcome
      exact ⟨_, isUnit, rfl, _, rfl, rfl⟩

end Target

variable {settings again : Settings} {before after last : Target} {results later : TargetResults}
  {extras : List String} {compiled : CompiledUnit} {top : Block} {text next : String}

/-- The step code of a rebuilt unit is a call of the marker block with the step code it had. -/
theorem Target.Consists.lowers_again (consists : before.Consists settings results extras after)
    (wellFormed : before.WellFormed) (compiledAll : before.compile? = some results)
    (mem : compiled ∈ results.units) (plan : compiled.plan settings before = .ok (top, text))
    (behind : top.next = some next) :
    ∃ position params, after.block? compiled.top = some (top.movedTo position) ∧
      after.block? next = some (.marker compiled.top text) ∧
      after.Lowers compiled.top ⟨params, markerCall text⟩ := by
  obtain ⟨place, stored⟩ : ∃ place, ∀ {id : String} {block : Block},
      compiled.Contributes settings before place id (.block block) → after.block? id = some block := by
    obtain ⟨position, -, complete⟩ := consists.exists_position
    exact ⟨position compiled.top, fun contributes =>
      Target.block?_eq_some.mpr (complete compiled mem _ _ contributes)⟩
  have isTop := stored (.top plan)
  have isMarker := stored (.marker plan behind)
  have chained (params : List String) (warp : Bool) :
      Lowering.chain ⟨after, params, warp⟩ (top.movedTo place).next = .ok (markerCall text) := by
    rw [show (top.movedTo place).next = some next from behind]
    exact Lowering.chain_marker isMarker
  suffices ∃ params, after.Lowers compiled.top ⟨params, markerCall text⟩ from
    this.elim fun params lowers => ⟨place, params, isTop, isMarker, lowers⟩
  obtain ⟨body, ok, wasTop, -⟩ := CompiledUnit.plan_eq_ok.mp plan
  obtain ⟨script, lowers, -⟩ := Target.exists_carries compiledAll mem ok
  generalize compiled.top = id at lowers isTop wasTop ⊢
  cases lowers with
  | hat inHats _ =>
      obtain ⟨inList, isHat⟩ := List.mem_filter.mp inHats
      obtain rfl := Option.some.inj
        (wasTop.symm.trans (Target.block?_of_mem_blockList wellFormed.distinct inList))
      have inHats : (id, top.movedTo place) ∈ after.hats :=
        List.mem_filter.mpr ⟨Target.mem_blockList_of_block? isTop, isHat⟩
      exact ⟨[], .hat inHats (chained [] false)⟩
  | @definition definition mutation _ isDefinition isPrototype _ =>
      obtain ⟨inList, opcode, isHeld⟩ := Target.mem_definitions.mp isDefinition
      obtain rfl := Option.some.inj
        (wasTop.symm.trans (Target.block?_of_mem_blockList wellFormed.distinct inList))
      obtain ⟨prototype, isSome, isMutation⟩ := Option.bind_eq_some_iff.mp isPrototype
      obtain ⟨inner, slot, exist⟩ := Option.bind_eq_some_iff.mp (isHeld.symm.trans isSome)
      have inScript := root_mem_scriptBlocks wellFormed.distinct exist
      have held := stored (.held plan slot inScript (Target.block?_eq_some.mp exist))
      let moved : Definition := ⟨definition.id, definition.block.movedTo place, some prototype⟩
      have inDefinitions : moved ∈ after.definitions := by
        refine Target.mem_definitions.mpr ⟨Target.mem_blockList_of_block? isTop, opcode, ?_⟩
        exact (Option.bind_eq_some_iff.mpr ⟨inner, slot, held⟩).symm
      have lowersMoved : after.Lowers moved.id ⟨mutation.names, markerCall text⟩ :=
        .definition inDefinitions isMutation (chained _ _)
      exact ⟨mutation.names, lowersMoved⟩

/-! ## Running what a second rebuild plants -/

/-- A routine whose first statement fails in every host that knows the marker block. -/
def Routine.BreaksOff (routine : Routine) : Prop :=
  ∀ (foreign : Foreign) (turn : Turn) (params : Table Value) (warp : Bool),
    turn.host.extensions.get? supportExtension = some .support →
      Sequence.run? foreign 2 ⟨none, [Activation.enter routine params warp]⟩ turn =
        some (.error .markerOutsideScript, turn)

/-- Compiled code cannot call the marker block. -/
theorem runBlock_marker {foreign : Foreign} {turn : Turn}
    (known : turn.host.extensions.get? supportExtension = some .support) (args : Table Value)
    (state : BlockState) :
    (runBlock foreign markerOpcode args state).run.run turn = (.error .markerOutsideScript, turn) := by
  change runBlock foreign markerOpcode args state turn = _
  unfold runBlock
  rw [perform_marker known]
  rfl

theorem breaksOff_of_markerCall {routine : Routine} (isCall : routine.script.body = markerCall text) :
    routine.BreaksOff := by
  intro foreign turn params warp known
  have isInstr : routine.instr? 0 0 = some (.op markerOpcode [(markerInput, .text text)]) := by
    unfold Routine.instr? Routine.body
    rw [routine.isNumbered, isCall]
    rfl
  let call := Activation.enter routine params warp
  let op : PendingOp := ⟨markerOpcode, .ofList [(markerInput, .text text)], .fresh⟩
  have first : (Sequence.step foreign ⟨none, [call]⟩).run.run turn =
      (.ok (.more ⟨some op, [{ call with frames := [⟨0, 1, .once⟩] }]⟩), turn) := by
    rw [Sequence.step_execute rfl isInstr]
    rfl
  have second (calls : List Activation) : (Sequence.step foreign ⟨some op, calls⟩).run.run turn =
      (.error .markerOutsideScript, turn) :=
    Sequence.step_of_runBlock_error op (runBlock_marker known _ _)
  exact Sequence.run?_of_more first (Sequence.run?_of_rests (second _))

/-- The step code `shown` does nothing but call the marker block with `text`. -/
structure WrapsMarker (text shown : String) : Prop where
  longer : text.length < shown.length
  isCall : ∃ params, Script.parse shown = .ok ⟨params, markerCall text⟩
  /-- It can be loaded, but not run. -/
  breaksOff : ∀ helpers, ∃ routine, Routine.load shown helpers = .ok routine ∧ routine.BreaksOff

theorem wrapsMarker_of_spells {params : List String} {shown : String} {bare : Bool}
    (spells : Spells bare shown.toList (Script.tree ⟨params, markerCall text⟩).lexemes) :
    WrapsMarker text shown where
  longer := by
    have inside : .atom (.text text) ∈ (Script.tree ⟨params, markerCall text⟩).lexemes := by
      simp [Script.tree, markerCall, stmtTrees, Stmt.tree, argTrees, Expr.tree, Tree.text, Tree.lexemes,
        Tree.allLexemes]
    have shorter := Phase.length_lt_of_lexemes? spells.lexemes? inside
    simpa [Phase.textRead, ← String.length_toList] using shorter
  isCall := ⟨params, Script.parse_of_spells (markerCall_sound text).wellFormed spells⟩
  breaksOff helpers := by
    have parsed : Script.parse shown = .ok ⟨params, markerCall text⟩ :=
      Script.parse_of_spells (markerCall_sound text).wellFormed spells
    exact ⟨_, Routine.load_helperless parsed rfl helpers, breaksOff_of_markerCall rfl⟩

/-! ## Both rebuilds -/

/-- A second rebuild replaces the marker of a unit by one that calls the marker block with its text. -/
theorem Target.Consists.wraps (consists : before.Consists settings results extras after)
    (wellFormed : before.WellFormed) (compiledAll : before.compile? = some results)
    {others : List String} (consistsLater : after.Consists again later others last)
    (wellFormedAfter : after.WellFormed) (compiledLater : after.compile? = some later)
    (mem : compiled ∈ results.units) (plan : compiled.plan settings before = .ok (top, text))
    (behind : top.next = some next) :
    after.block? next = some (.marker compiled.top text) ∧
      ∃ shown, last.block? next = some (.marker compiled.top shown) ∧ WrapsMarker text shown := by
  obtain ⟨place, params, isTop, isMarker, lowers⟩ :=
    consists.lowers_again wellFormed compiledAll mem plan behind
  obtain ⟨unit, isUnit, sameTop, body, ok, carried⟩ :=
    lowers.exists_unit compiledLater wellFormedAfter.distinct
  obtain ⟨shown, bare, isText, spells⟩ :=
    spells_markerText again (markerCall_sound text).wellFormed carried
  have planAgain : unit.plan again after = .ok (top.movedTo place, shown) :=
    CompiledUnit.plan_eq_ok.mpr ⟨body, ok, sameTop ▸ isTop, isText⟩
  obtain ⟨position, -, complete⟩ := consistsLater.exists_position
  have stored := complete unit isUnit next _ (.marker planAgain behind)
  exact ⟨isMarker, shown, Target.block?_eq_some.mpr (sameTop ▸ stored), wrapsMarker_of_spells spells⟩

/-- No marker survives a second rebuild.  It is planted again under its id and behind the same block,
but its text is then a call of the marker block with the text it had, and whoever enters it fails. -/
theorem second_rebuild_wraps_every_marker {newId : List String → String}
    (fresh : ∀ used, newId used ∉ used) (settings again : Settings) (source : Project)
    (wellFormed : ∀ target ∈ source.targets, target.WellFormed) :
    ∃ once report twice later, source.precompile? newId settings = some (once, report) ∧
      once.precompile? newId again = some (twice, later) ∧
      ∀ (index : Nat) (before : Target) (results : TargetResults),
        source.targets[index]? = some before → before.compile? = some results →
        ∃ first second, once.targets[index]? = some first ∧ twice.targets[index]? = some second ∧
          ∀ compiled ∈ results.units, ∀ top text next,
            compiled.plan settings before = .ok (top, text) → top.next = some next →
            first.block? next = some (.marker compiled.top text) ∧
              ∃ shown, second.block? next = some (.marker compiled.top shown) ∧
                WrapsMarker text shown := by
  obtain ⟨once, report, done, length, contents⟩ :=
    rebuilt_targets_hold_what_units_contribute fresh settings source wellFormed
  have wellFormedOnce : ∀ target ∈ once.targets, target.WellFormed := by
    intro target mem
    obtain ⟨index, isTarget⟩ := List.mem_iff_getElem?.mp mem
    obtain ⟨inRange, -⟩ := List.getElem?_eq_some_iff.mp isTarget
    obtain ⟨after, _, _, isAfter, -, -, -, wellFormedAfter, -⟩ :=
      contents index _ (List.getElem?_eq_getElem (length ▸ inRange))
    exact Option.some.inj (isAfter.symm.trans isTarget) ▸ wellFormedAfter
  obtain ⟨twice, later, doneAgain, -, contentsAgain⟩ :=
    rebuilt_targets_hold_what_units_contribute fresh again once wellFormedOnce
  refine ⟨once, report, twice, later, done, doneAgain, ?_⟩
  intro index before results isBefore compiledAll
  obtain ⟨first, _, extras, isFirst, sameResults, -, consists, wellFormedFirst, -⟩ :=
    contents index before isBefore
  obtain rfl := Option.some.inj (compiledAll.symm.trans sameResults)
  obtain ⟨second, _, others, isSecond, compiledFirst, -, consistsFirst, -, -⟩ :=
    contentsAgain index first isFirst
  refine ⟨first, second, isFirst, isSecond, fun compiled mem top text next plan behind => ?_⟩
  exact consists.wraps (wellFormed before (List.mem_of_getElem? isBefore)) compiledAll consistsFirst
    wellFormedFirst compiledFirst mem plan behind

theorem settingTarget_wellFormed : settingTarget.WellFormed := by
  let rank (id : String) : Nat := if id = "h" then 0 else 1
  have falls : ∀ entry ∈ settingTarget.blockList, ∀ parent ∈ entry.2.parent,
      rank parent < rank entry.1 := by decide
  have parents : ∀ entry ∈ settingTarget.blockList, ∀ inner ∈ entry.2.links,
      (settingTarget.block? inner).map Block.parent = some (some entry.1) := by decide
  refine .of_linked (by decide) ?_ (by decide) (Target.ends_of_rank rank falls) (by decide)
  intro entry mem inner refers
  obtain ⟨child, found, isParent⟩ := Option.map_eq_some_iff.mp (parents entry mem inner refers)
  exact ⟨child, found, isParent⟩

/-- The marker of the script that sets a variable is wrapped by a second rebuild. -/
theorem settingProgram_is_wrapped :
    ∃ once report twice later first second shown,
      settingProgram.precompile? (freshId 0) .default = some (once, report) ∧
      once.precompile? (freshId 0) .default = some (twice, later) ∧
      once.targets[0]? = some first ∧ twice.targets[0]? = some second ∧
      first.block? "a" = some (.marker "h" "(script()(set\"x\"0.5))") ∧
      second.block? "a" = some (.marker "h" shown) ∧
      WrapsMarker "(script()(set\"x\"0.5))" shown := by
  have wellFormed : ∀ target ∈ settingProgram.targets, target.WellFormed := by
    simpa [settingProgram] using settingTarget_wellFormed
  obtain ⟨results, compiled, compiledAll, isUnit, isTop, top, plan, -⟩ := settingTarget_plants
  obtain ⟨once, report, twice, later, done, doneAgain, wraps⟩ :=
    second_rebuild_wraps_every_marker (freshId_not_mem 0) .default .default settingProgram wellFormed
  obtain ⟨first, second, isFirst, isSecond, units⟩ := wraps 0 settingTarget results rfl compiledAll
  have behind : top.next = some "a" := by
    obtain ⟨_, -, found, -⟩ := CompiledUnit.plan_eq_ok.mp plan
    rw [isTop] at found
    exact Option.some.inj found ▸ rfl
  obtain ⟨planted, shown, wrapped, isWrapped⟩ := units compiled isUnit top _ "a" plan behind
  rw [isTop] at planted wrapped
  exact ⟨once, report, twice, later, first, second, shown, done, doneAgain, isFirst, isSecond, planted,
    wrapped, isWrapped⟩

/-- The step code in the blocks with an id, one for each target. -/
def Project.codes (program : Project) (id : String) : List (Option String) :=
  program.targets.map fun target => (target.block? id).bind fun block => block.inputText? markerInput

/-- The text of this marker after one rebuild and after two.  The only new block is a placeholder of the
second one, so a single new id is enough. -/
theorem second_rebuild_changes_a_marker : ∃ once report twice later,
    settingProgram.precompile? (fun _ => "p") .default = some (once, report) ∧
    once.precompile? (fun _ => "p") .default = some (twice, later) ∧
    once.codes "a" = [some "(script()(set\"x\"0.5))"] ∧
    twice.codes "a" =
      [some "(script()(op\"precomp_compile\"(\"CODE\"\"(script()(set\\\"x\\\"0.5))\")))"] := by
  have computed : (settingProgram.precompile? (fun _ => "p") .default).bind (fun done =>
      (done.1.precompile? (fun _ => "p") .default).map fun again =>
        (done.1.codes "a", again.1.codes "a")) =
      some ([some "(script()(set\"x\"0.5))"],
        [some "(script()(op\"precomp_compile\"(\"CODE\"\"(script()(set\\\"x\\\"0.5))\")))"]) := by
    decide +kernel
  obtain ⟨⟨once, report⟩, done, rest⟩ := Option.bind_eq_some_iff.mp computed
  obtain ⟨⟨twice, later⟩, again, codes⟩ := Option.map_eq_some_iff.mp rest
  obtain ⟨first, second⟩ := Prod.mk.inj codes
  exact ⟨once, report, twice, later, done, again, first, second⟩

end StepCode
