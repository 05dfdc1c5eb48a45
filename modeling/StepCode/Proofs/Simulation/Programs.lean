import StepCode.Proofs.Decimal.ReadBack
import StepCode.Proofs.Rebuild.Calls
import StepCode.Proofs.Rebuild.Twice
import StepCode.Proofs.Simulation.Matching

/-!
# Rebuilt programs

Where all units of a plain target have been compiled, step code stands behind every hat and every
definition with a body, and each call is answered by the step code of its own procedure.
-/

namespace StepCode

open Lowering (Place)

/-! ## The step code of a unit -/

/-- The routine that is loaded for a chain does what the chain does. -/
theorem Code.of_chain {place : Place} {first : Option String} {script : Script} {source : String}
    {routine : Routine}
    (plain : ∀ id ∈ first, ∀ block ∈ place.target.block? id, block.isPlainStatement = true)
    (lowered : Lowering.chain place first = .ok script.body)
    (parsed : Script.parse source = .ok script)
    (loaded : Routine.load source (approvedHelpers Helper.shipped) = .ok routine) :
    Code place routine first (routine.body Routine.entry) := by
  have isScript : routine.script = script := Routine.script_of_load parsed loaded
  refine ⟨_, _, script.body, lowered, isScript ▸ routine.holds, ?_, plain⟩
  exact fun name called => Routine.get?_helpers_of_load parsed loaded called

namespace Target.Lowers

variable {target : Target} {id : String} {script : Script} {block : Block}

/-- The script of a hat is its chain. -/
theorem of_hat (lowers : target.Lowers id script) (distinct : target.blocks.keys.Nodup)
    (found : target.block? id = some block) (isHat : block.isHat = true) :
    script.params = [] ∧ Lowering.chain ⟨target, [], false⟩ block.next = .ok script.body := by
  cases lowers with
  | hat mem lowered =>
      have same := Target.block?_of_mem_blockList distinct (List.mem_filter.mp mem).1
      obtain rfl := Option.some.inj (same.symm.trans found)
      exact ⟨rfl, lowered⟩
  | definition mem _ _ =>
      obtain ⟨inList, opcode, -⟩ := Target.mem_definitions.mp mem
      have same := Target.block?_of_mem_blockList distinct inList
      obtain rfl := Option.some.inj (same.symm.trans found)
      exact absurd opcode (Block.opcode_ne_of_isHat isHat)

/-- The script of a definition is its chain, with the parameters of the prototype that it holds. -/
theorem of_definition (lowers : target.Lowers id script) (distinct : target.blocks.keys.Nodup)
    (found : target.block? id = some block) (opcode : block.opcode = definitionOpcode) {inner : String}
    {prototype : Block} {mutation : Mutation} (slot : block.inputBlock? "custom_block" = some inner)
    (held : target.block? inner = some prototype) (mutated : prototype.mutation = some mutation) :
    script.params = mutation.names ∧
      Lowering.chain ⟨target, mutation.names, mutation.isWarp⟩ block.next = .ok script.body := by
  cases lowers with
  | hat mem _ =>
      obtain ⟨inList, isEntry⟩ := List.mem_filter.mp mem
      have same := Target.block?_of_mem_blockList distinct inList
      obtain rfl := Option.some.inj (same.symm.trans found)
      exact absurd opcode (Block.opcode_ne_of_isHat (Bool.and_eq_true_iff.mp isEntry).2)
  | definition mem isMutation lowered =>
      obtain ⟨inList, -, isPrototype⟩ := Target.mem_definitions.mp mem
      have same := Target.block?_of_mem_blockList distinct inList
      obtain rfl := Option.some.inj (same.symm.trans found)
      rw [isPrototype, slot, Option.bind_some, held, Option.bind_some, mutated] at isMutation
      obtain rfl := Option.some.inj isMutation
      exact ⟨rfl, lowered⟩

end Target.Lowers

/-- All units of the target have been compiled. -/
def Target.CompilesFully (target : Target) : Prop :=
  ∀ results, target.compile? = some results → ∀ compiled ∈ results.units, compiled.succeeded = true

theorem Target.compilesFully_of_all {target : Target}
    (all : target.compile?.map (fun results => results.units.all CompiledUnit.succeeded) = some true) :
    target.CompilesFully := by
  intro results compiledAll
  rw [compiledAll] at all
  exact List.all_eq_true.mp (Option.some.inj all)

/-! ## Hats and definitions -/

/-- A hat or definition of a plain target does nothing itself. -/
theorem Target.Plain.passes {target : Target} (plain : target.Plain) {id : String} {block : Block}
    (found : target.block? id = some block)
    (isEntry : block.isHat = true ∨ block.opcode = definitionOpcode) : block.Passes where
  isPass := by
    rcases isEntry with isHat | opcode
    · exact if_pos isHat
    · rw [opcode]
      rfl
  noReporters slot mem := by
    obtain ⟨stored, isRead⟩ := List.mem_filter.mp mem
    exact plain.entries _ (Target.mem_blockList_of_block? found) isEntry slot stored (by simpa using isRead)

section

variable {newId : List String → String} {settings : Settings} {before after : Target}
  {results : TargetResults}

/-- A unit that has been compiled is planted, and its text is loaded. -/
theorem Target.Rebuilt.exists_code (rebuilt : Target.Rebuilt newId settings before results after)
    (numbers : ∀ x ∈ before.literalNumbers, x.isFinite = true) (full : before.CompilesFully)
    {compiled : CompiledUnit} (mem : compiled ∈ results.units) {top : Block}
    (found : before.block? compiled.top = some top) :
    ∃ text script routine, compiled.plan settings before = .ok (top, text) ∧
      before.Lowers compiled.top script ∧ Script.parse text = .ok script ∧
      Routine.load text (approvedHelpers Helper.shipped) = .ok routine := by
  have succeeded := full results rebuilt.outcomes compiled mem
  rcases CompiledUnit.plan_cases rebuilt.outcomes numbers mem found with
    ⟨-, text, plan⟩ | ⟨failed, -⟩
  · obtain ⟨script, routine, lowers, parsed, loads⟩ :=
      loadsAs_of_plan rebuilt.outcomes numbers mem plan
    exact ⟨text, script, routine, plan, lowers, parsed, loads⟩
  · simp [succeeded] at failed

/-- Calls in a rebuilt target are answered by the procedures that they name. -/
theorem Target.Rebuilt.answers (rebuilt : Target.Rebuilt newId settings before results after)
    (fresh : ∀ used, newId used ∉ used) (linked : before.EntriesLinked) (plain : before.Plain)
    (numbers : ∀ x ∈ before.literalNumbers, x.isFinite = true) (full : before.CompilesFully) :
    Answers before after where
  missing proccode undeclared := by
    have undeclaredAfter := (rebuilt.prototype?_eq fresh linked proccode).trans undeclared
    simp [Target.procedureMarker?, undeclaredAfter]
  declared proccode inner prototype declared := by
    obtain ⟨owner, definition, parent, found, opcode, slot, held, named⟩ :=
      Target.exists_holder linked declared
    obtain ⟨mutation, mutated, -⟩ := Option.bind_eq_some_iff.mp named
    refine ⟨mutation, owner, definition, mutated, parent, found, plain.passes found (.inr opcode), ?_⟩
    obtain ⟨compiled, inProcedures, rfl⟩ := rebuilt.exists_unit linked found opcode
    have mem : compiled ∈ results.units := List.mem_append_right _ inProcedures
    cases behind : definition.next with
    | none =>
        obtain ⟨x, y, kept⟩ := Target.get?_rebuild_top settings rebuilt.outcomes linked mem found
        have isAfter := Target.block?_eq_some.mpr (rebuilt.get?_of_rebuild fresh kept)
        have declaredAfter := (rebuilt.prototype?_eq fresh linked proccode).trans declared
        refine .inl ⟨rfl, ?_⟩
        rw [Target.procedureMarker?_eq declaredAfter parent isAfter, behind]
        rfl
    | some next =>
        obtain ⟨text, script, routine, plan, lowers, parsed, loads⟩ :=
          rebuilt.exists_code numbers full mem found
        obtain ⟨isMarker, planted⟩ :=
          rebuilt.procedureMarker?_of_plan fresh linked mem declared parent plan behind
        obtain ⟨params, lowered⟩ := lowers.of_definition linked.distinct found opcode slot held mutated
        have isParams : routine.params = mutation.names := by
          rw [Routine.params, Routine.script_of_load parsed loads, params]
        have followers := plain.followers _ (Target.mem_blockList_of_block? found)
        rw [behind] at lowered followers
        exact .inr ⟨next, text, routine, isMarker, ⟨_, planted, rfl⟩, loads, isParams,
          .of_chain followers lowered parsed loads⟩

/-! ## Hats -/

/-- The hats that an event starts, with a body or without. -/
def Target.started (target : Target) (opcode : String) (field : Option (String × String)) :
    List String :=
  (target.blockList.filter fun entry => Host.startsOn opcode field entry.2).map (·.1)

/-- Whether something follows the block. -/
def Target.hasBody (target : Target) (id : String) : Bool :=
  (target.block? id).any fun block => block.next.isSome

/-- Whether the event starts the script of the block, and the script has a body. -/
def Target.starts (target : Target) (opcode : String) (field : Option (String × String))
    (id : String) : Bool :=
  (target.block? id).any fun block => Host.startsOn opcode field block && block.next.isSome

theorem Target.starts_iff {target : Target} {opcode id : String} {field : Option (String × String)} :
    target.starts opcode field id = true ↔
      ∃ block, target.block? id = some block ∧ Host.startsOn opcode field block = true ∧
        block.next.isSome = true := by
  simp [Target.starts, Option.any_eq_true]

theorem Host.isEntry_of_startsOn {opcode : String} {field : Option (String × String)} {block : Block}
    (isEvent : opcode ∈ hatOpcodes) (started : Host.startsOn opcode field block = true) :
    block.isHat = true ∧ block.topLevel = true := by
  unfold Host.startsOn at started
  rw [Bool.and_eq_true, Bool.and_eq_true, beq_iff_eq] at started
  obtain ⟨⟨rfl, topLevel⟩, -⟩ := started
  exact ⟨List.contains_iff_mem.mpr isEvent, topLevel⟩

theorem Target.mem_started {target : Target} (distinct : target.blocks.keys.Nodup) {opcode id : String}
    {field : Option (String × String)} (mem : id ∈ target.started opcode field) :
    ∃ block, target.block? id = some block ∧ Host.startsOn opcode field block = true := by
  obtain ⟨⟨_, block⟩, isStarted, rfl⟩ := List.mem_map.mp mem
  obtain ⟨inList, started⟩ := List.mem_filter.mp isStarted
  exact ⟨block, Target.block?_of_mem_blockList distinct inList, started⟩

theorem Target.nodup_started {target : Target} (distinct : target.blocks.keys.Nodup) (opcode : String)
    (field : Option (String × String)) : (target.started opcode field).Nodup := by
  rw [Target.started, Target.map_fst_filter_blockList distinct (Host.startsOn opcode field)]
  exact distinct.filter _

theorem Target.filter_started {target : Target} (distinct : target.blocks.keys.Nodup)
    (opcode : String) (field : Option (String × String)) :
    (target.started opcode field).filter target.hasBody =
      target.blocks.keys.filter (target.starts opcode field) := by
  rw [Target.started, Target.map_fst_filter_blockList distinct (Host.startsOn opcode field),
    List.filter_filter]
  refine List.filter_congr fun id _ => ?_
  unfold Target.hasBody Target.starts
  cases target.block? id with
  | none => rfl
  | some block => exact Bool.and_comm _ _

namespace Target.Rebuilt

variable {opcode : String} {field : Option (String × String)} {id : String} {hat : Block}

/-- A hat that an event starts is kept, up to its position. -/
theorem exists_moved_hat (rebuilt : Target.Rebuilt newId settings before results after)
    (fresh : ∀ used, newId used ∉ used) (linked : before.EntriesLinked)
    (found : before.block? id = some hat) (isHat : hat.isHat = true) (topLevel : hat.topLevel = true) :
    ∃ compiled ∈ results.units, compiled.top = id ∧
      ∃ x y, after.block? id = some { hat with x := x, y := y } := by
  have mem : (id, hat) ∈ before.hats :=
    List.mem_filter.mpr ⟨Target.mem_blockList_of_block? found, by simp [topLevel, isHat]⟩
  obtain ⟨compiled, isUnit, outcome⟩ :=
    Target.exists_unit_of_hat rebuilt.outcomes linked.distinct mem
  obtain ⟨rfl, -⟩ := CompiledUnit.ofLowered?_eq_some outcome
  obtain ⟨x, y, kept⟩ := Target.get?_rebuild_top settings rebuilt.outcomes linked isUnit found
  exact ⟨compiled, isUnit, rfl, x, y, Target.block?_eq_some.mpr (rebuilt.get?_of_rebuild fresh kept)⟩

/-- An event starts the same scripts with a body before and after a rebuild. -/
theorem starts_eq (rebuilt : Target.Rebuilt newId settings before results after)
    (fresh : ∀ used, newId used ∉ used) (linked : before.EntriesLinked)
    (isEvent : opcode ∈ hatOpcodes) : after.starts opcode field = before.starts opcode field := by
  funext id
  rw [Bool.eq_iff_iff, Target.starts_iff, Target.starts_iff]
  constructor
  · rintro ⟨block, found, started, hasBody⟩
    rcases rebuilt.block_cases found with ⟨old, x, y, wasOld, rfl⟩ | ⟨parent, text, rfl⟩ | ⟨_, rfl⟩
    · exact ⟨old, wasOld, started, hasBody⟩
    · cases hasBody
    · cases hasBody
  · rintro ⟨hat, found, started, hasBody⟩
    obtain ⟨isHat, topLevel⟩ := Host.isEntry_of_startsOn isEvent started
    obtain ⟨-, -, -, x, y, isAfter⟩ := rebuilt.exists_moved_hat fresh linked found isHat topLevel
    exact ⟨_, isAfter, started, hasBody⟩

/-- They are started in the same order. -/
theorem filter_started (rebuilt : Target.Rebuilt newId settings before results after)
    (fresh : ∀ used, newId used ∉ used) (linked : before.EntriesLinked)
    (isEvent : opcode ∈ hatOpcodes) :
    (after.started opcode field).filter after.hasBody =
      (before.started opcode field).filter before.hasBody := by
  rw [Target.filter_started rebuilt.nodup_keys, Target.filter_started linked.distinct,
    rebuilt.starts_eq fresh linked isEvent]
  have isHat : ∀ id, before.starts opcode field id = true →
      ∃ block, before.block? id = some block ∧ block.isHat = true ∧ block.topLevel = true := by
    intro id starts
    obtain ⟨block, found, started, -⟩ := Target.starts_iff.mp starts
    exact ⟨block, found, Host.isEntry_of_startsOn isEvent started⟩
  refine rebuilt.filter_keys fresh linked (fun id starts => ?_) ?_
  · obtain ⟨block, found, isHat, topLevel⟩ := isHat id starts
    exact ⟨block, found, by simp [Block.isEntry, isHat, topLevel]⟩
  have procedures : (results.procedures.map (·.top)).filter (before.starts opcode field) = [] := by
    refine List.filter_eq_nil_iff.mpr fun id mem starts => ?_
    rw [Target.map_top_procedures rebuilt.outcomes, Target.map_id_definitions linked.distinct] at mem
    obtain ⟨block, found, opcode⟩ := Target.defines_iff.mp (List.mem_filter.mp mem).2
    obtain ⟨hat, same, isHat, -⟩ := isHat id starts
    obtain rfl := Option.some.inj (same.symm.trans found)
    exact Block.opcode_ne_of_isHat isHat opcode
  rw [TargetResults.units, List.map_append, List.filter_append, procedures, List.append_nil,
    Target.map_top_hats rebuilt.outcomes linked.distinct, Target.hats,
    Target.map_fst_filter_blockList linked.distinct fun block => block.topLevel && block.isHat,
    List.filter_filter]
  refine List.filter_congr fun id _ => ?_
  cases starts : before.starts opcode field id with
  | false => rfl
  | true =>
      obtain ⟨block, found, isHat, topLevel⟩ := isHat id starts
      simp [found, isHat, topLevel]

/-- A hat of the rebuilt target does nothing itself, be it an old one or a placeholder. -/
theorem passes (rebuilt : Target.Rebuilt newId settings before results after) (plain : before.Plain)
    (found : after.block? id = some hat) (isHat : hat.isHat = true) : hat.Passes := by
  rcases rebuilt.block_cases found with ⟨old, x, y, wasOld, rfl⟩ | ⟨parent, text, rfl⟩ | ⟨_, rfl⟩
  · have passes : old.Passes := plain.passes wasOld (.inl isHat)
    exact ⟨passes.isPass, passes.noReporters⟩
  · simp [Block.isHat, Block.marker, Block.bare, markerOpcode, hatOpcodes] at isHat
  · exact ⟨if_pos isHat, by simp [Block.readSlots, Block.placeholder, Block.bare, Table.keys, Table.empty]⟩

/-- Behind a hat with a body stands a marker with the step code of the body. -/
theorem exists_marker (rebuilt : Target.Rebuilt newId settings before results after)
    (fresh : ∀ used, newId used ∉ used) (linked : before.EntriesLinked) (plain : before.Plain)
    (numbers : ∀ x ∈ before.literalNumbers, x.isFinite = true) (full : before.CompilesFully)
    (found : before.block? id = some hat) (isHat : hat.isHat = true) (topLevel : hat.topLevel = true)
    {next : String} (behind : hat.next = some next) :
    ∃ text routine, after.block? next = some (.marker id text) ∧
      Routine.load text (approvedHelpers Helper.shipped) = .ok routine ∧ routine.params = [] ∧
      Lowering.chain ⟨before, [], false⟩ hat.next = .ok routine.script.body ∧
      Code ⟨before, [], false⟩ routine hat.next (routine.body Routine.entry) := by
  obtain ⟨compiled, mem, rfl, -⟩ := rebuilt.exists_moved_hat fresh linked found isHat topLevel
  obtain ⟨text, script, routine, plan, lowers, parsed, loads⟩ :=
    rebuilt.exists_code numbers full mem found
  obtain ⟨params, lowered⟩ := lowers.of_hat linked.distinct found isHat
  have planted := Target.get?_rebuild_marker rebuilt.outcomes linked mem plan behind
  have followers := plain.followers _ (Target.mem_blockList_of_block? found)
  have isScript : routine.script = script := Routine.script_of_load parsed loads
  refine ⟨text, routine, Target.block?_eq_some.mpr (rebuilt.get?_of_rebuild fresh planted), loads, ?_,
    isScript ▸ lowered, .of_chain followers lowered parsed loads⟩
  rw [Routine.params, isScript, params]

end Target.Rebuilt

/-- Before anything runs, a target and its rebuilt form have the same variables. -/
theorem Target.Rebuilt.alike (rebuilt : Target.Rebuilt newId settings before results after) :
    (LiveTarget.start before).Alike (LiveTarget.start after) := by
  obtain ⟨extras, -, rfl⟩ := rebuilt.isAfter
  exact ⟨rfl, rfl, .refl _, rfl⟩

end

/-! ## Whole programs -/

/-- A target whose compiled code does what its blocks do: the links of hats and definitions agree, all
blocks are plain, all units are compiled, and no literal is infinite. -/
structure Target.Simulable (target : Target) : Prop where
  linked : target.EntriesLinked
  plain : target.Plain
  compiles : target.CompilesFully
  finite : ∀ x ∈ target.literalNumbers, x.isFinite = true

section

variable {newId : List String → String} {settings : Settings} {source rebuilt : Project}
  {report : RebuildReport}

/-- The targets of a program and those of its rebuilt form, in their order. -/
theorem Project.forall₂_rebuilt (done : source.precompile? newId settings = some (rebuilt, report)) :
    List.Forall₂ (fun before after => ∃ results, Target.Rebuilt newId settings before results after)
      source.targets rebuilt.targets := by
  obtain ⟨targets, isRebuilt, pairs⟩ := Project.exists_plain_targets done
  have sameLength : source.targets.length = rebuilt.targets.length := by
    rw [isRebuilt, length_keepExtensions, pairs.length_eq]
  refine List.forall₂_iff_get.mpr ⟨sameLength, fun index isBefore isAfter => ?_⟩
  exact Project.rebuilt_target done (List.getElem?_eq_getElem isBefore)
    (List.getElem?_eq_getElem isAfter)

theorem Project.map_name_rebuilt
    (done : source.precompile? newId settings = some (rebuilt, report)) :
    rebuilt.targets.map Target.name = source.targets.map Target.name := by
  refine (map_eq_of_forall₂ (Project.forall₂_rebuilt done) ?_).symm
  rintro before after ⟨results, isRebuilt⟩
  exact isRebuilt.alike.name

end

end StepCode
