import StepCode.Proofs.Rebuild.Writes
import StepCode.Proofs.Sequencing
import StepCode.Rebuild.FreshId

/-!
# Extensions in use stay loaded

A rebuild keeps the extensions that some block of the original uses, and plants one invisible block for
each into the first target.  As the planted blocks are found when the rebuilt program is rebuilt in its
turn, its list of extensions does not change any more.
-/

namespace StepCode

/-! ## Opcodes of extensions -/

/-- The opcode is one of the extension. -/
def BelongsTo (extension opcode : String) : Prop := ∃ name, opcode = extension ++ "_" ++ name

theorem startsWith_eq_true {extension opcode : String} :
    Text.startsWith opcode (extension ++ "_") = true ↔ BelongsTo extension opcode := by
  unfold Text.startsWith BelongsTo
  rw [List.isPrefixOf_iff_prefix]
  constructor
  · rintro ⟨name, spelled⟩
    exact ⟨String.ofList name, String.toList_inj.mp (by simpa using spelled.symm)⟩
  · rintro ⟨name, rfl⟩
    exact ⟨name.toList, by simp⟩

namespace Project

variable (project : Project) (extension : String)

/-- The opcodes of all blocks, target by target and in table order. -/
def opcodes : List String :=
  project.targets.flatMap fun target => target.blockList.map fun (_, block) => block.opcode

/-- Some block of some target is of the extension. -/
def Uses : Prop := ∃ opcode ∈ project.opcodes, BelongsTo extension opcode

/-- No block before the one with this opcode is of the extension. -/
def FirstUse (opcode : String) : Prop :=
  ∃ before after, project.opcodes = before ++ opcode :: after ∧ BelongsTo extension opcode ∧
    ∀ other ∈ before, ¬ BelongsTo extension other

variable {project extension}

theorem extensionOpcode?_eq_find? : extensionOpcode? project.targets extension =
    project.opcodes.find? fun opcode => Text.startsWith opcode (extension ++ "_") := by
  simp only [extensionOpcode?, opcodes, List.find?_flatMap, List.find?_map]
  rfl

theorem extensionOpcode?_eq_some {opcode : String} :
    extensionOpcode? project.targets extension = some opcode ↔
      project.FirstUse extension opcode := by
  rw [extensionOpcode?_eq_find?, List.find?_eq_some_iff_append, startsWith_eq_true]
  simp only [Bool.not_eq_true', ← Bool.not_eq_true, startsWith_eq_true]
  constructor
  · rintro ⟨belongs, before, after, split, others⟩
    exact ⟨before, after, split, belongs, others⟩
  · rintro ⟨before, after, split, belongs, others⟩
    exact ⟨belongs, before, after, split, others⟩

theorem extensionOpcode?_isSome :
    (extensionOpcode? project.targets extension).isSome ↔ project.Uses extension := by
  simp only [extensionOpcode?_eq_find?, List.find?_isSome, startsWith_eq_true, Uses]

instance : DecidablePred project.Uses := fun _ => decidable_of_iff _ extensionOpcode?_isSome

theorem FirstUse.uses {opcode : String} (first : project.FirstUse extension opcode) :
    project.Uses extension :=
  extensionOpcode?_isSome.mp (by simp [extensionOpcode?_eq_some.mpr first])

/-- A program without targets uses no extension. -/
theorem not_uses_of_targets_eq_nil (none : project.targets = []) : ¬ project.Uses extension := by
  simp [Uses, opcodes, none]

end Project

/-! ## Planting -/

namespace Project

variable (source : Project)

/-- The entry is a placeholder with the first opcode of the extension. -/
def PlantsFor (extension : String) (planted : String × BlockEntry) : Prop :=
  ∃ opcode, source.FirstUse extension opcode ∧ planted.2 = .block (.placeholder opcode)

/-- New ids, none of them twice. -/
structure Unclaimed (blocks : Table BlockEntry) (planted : List (String × BlockEntry)) : Prop where
  distinct : (planted.map (·.1)).Nodup
  isNew : ∀ extra ∈ planted, extra.1 ∉ blocks.keys

theorem Unclaimed.cons {blocks : Table BlockEntry} {id : String} {entry : BlockEntry}
    {planted : List (String × BlockEntry)} (isNew : id ∉ blocks.keys)
    (later : Unclaimed (blocks.insert id entry) planted) :
    Unclaimed blocks ((id, entry) :: planted) where
  distinct := by
    refine List.nodup_cons.mpr ⟨fun again => ?_, later.distinct⟩
    obtain ⟨extra, mem, same⟩ := List.mem_map.mp again
    exact later.isNew extra mem (Table.mem_keys_insert.mpr (.inl same))
  isNew := List.forall_mem_cons.mpr
    ⟨isNew, fun extra mem before => later.isNew extra mem (Table.mem_keys_insert.mpr (.inr before))⟩

/-- Unclaimed ids are entered behind all others. -/
theorem Unclaimed.insertAll {blocks : Table BlockEntry} {planted : List (String × BlockEntry)}
    (unclaimed : Unclaimed blocks planted) (distinct : blocks.keys.Nodup) :
    (blocks.keys ++ planted.map (·.1)).Nodup ∧
      blocks.insertAll planted = ⟨blocks.entries ++ planted⟩ := by
  have all : (blocks.keys ++ planted.map (·.1)).Nodup := by
    refine List.nodup_append.mpr ⟨distinct, unclaimed.distinct, ?_⟩
    rintro id before _ mem rfl
    obtain ⟨extra, inPlanted, rfl⟩ := List.mem_map.mp mem
    exact unclaimed.isNew extra inPlanted before
  exact ⟨all, Table.insertAll_of_distinct all⟩

/-- Planting keeps the extensions in use, and adds nothing but a placeholder for each. -/
theorem exists_planted (newId : List String → String) (extensions : List String) (main : Target) :
    ∃ planted, plantPlaceholders newId source.targets extensions main =
        ({ main with blocks := main.blocks.insertAll planted },
          ⟨extensions.filter (source.Uses ·), extensions.filter (¬ source.Uses ·)⟩) ∧
      List.Forall₂ source.PlantsFor (extensions.filter (source.Uses ·)) planted ∧
      ((∀ used, newId used ∉ used) → Unclaimed main.blocks planted) := by
  induction extensions generalizing main with
  | nil => exact ⟨[], rfl, .nil, fun _ => ⟨List.nodup_nil, by simp⟩⟩
  | cons extension rest ih =>
      unfold plantPlaceholders
      cases found : extensionOpcode? source.targets extension with
      | some opcode =>
          have first := extensionOpcode?_eq_some.mp found
          obtain ⟨planted, eq, each, unclaimed⟩ := ih { main with
            blocks := main.blocks.insert (newId main.blocks.keys) (.block (.placeholder opcode)) }
          refine ⟨(newId main.blocks.keys, .block (.placeholder opcode)) :: planted, ?_, ?_, ?_⟩
          · simp [eq, first.uses]
          · simpa [first.uses] using ⟨⟨opcode, first, rfl⟩, each⟩
          · exact fun fresh => .cons (fresh _) (unclaimed fresh)
      | none =>
          have unused : ¬ source.Uses extension := by simp [← extensionOpcode?_isSome, found]
          obtain ⟨planted, eq, each, unclaimed⟩ := ih main
          exact ⟨planted, by simp [eq, unused], by simpa [unused] using each, unclaimed⟩

end Project

/-! ## The rebuilt program -/

/-- The ids with the one of the support code, which is added unless it is among them. -/
def withSupport (kept : List String) : List String :=
  if supportExtension ∈ kept then kept else kept ++ [supportExtension]

theorem rebuiltExtensions_filter (source : List String) (selects : String → Bool) :
    rebuiltExtensions source (source.filter selects) = withSupport (source.filter selects) := by
  have same : source.filter (source.filter selects).contains = source.filter selects :=
    List.filter_congr fun extension mem => by simp [mem]
  simp [rebuiltExtensions, withSupport, same]

/-- Selecting again changes nothing if all but the added id are selected. -/
theorem withSupport_filter {kept : List String} {selects : String → Bool}
    (all : ∀ extension ∈ kept, selects extension) :
    withSupport ((withSupport kept).filter selects) = withSupport kept := by
  have stays : kept.filter selects = kept := List.filter_eq_self.mpr all
  by_cases listed : supportExtension ∈ kept
  · simp [withSupport, listed, stays]
  · cases again : selects supportExtension <;>
      simp [withSupport, listed, stays, List.filter_append, again]

/-- An invisible block without links. -/
structure Block.Invisible (block : Block) : Prop where
  shadow : block.shadow = true
  topLevel : block.topLevel = true
  next : block.next = none
  parent : block.parent = none
  inputs : block.inputs = .empty

theorem Block.placeholder_invisible (opcode : String) : (Block.placeholder opcode).Invisible :=
  ⟨rfl, rfl, rfl, rfl, rfl⟩

namespace Project

/-- The entry is an invisible block with the first opcode of the extension. -/
def Represents (source : Project) (extension : String) (planted : String × BlockEntry) : Prop :=
  ∃ block, planted.2 = .block block ∧ block.Invisible ∧ source.FirstUse extension block.opcode

theorem PlantsFor.represents {source : Project} {extension : String} {planted : String × BlockEntry}
    (plants : source.PlantsFor extension planted) : source.Represents extension planted := by
  obtain ⟨opcode, first, isPlaceholder⟩ := plants
  exact ⟨_, isPlaceholder, Block.placeholder_invisible opcode, first⟩

/-- The targets as the results leave them, before the extensions are looked at. -/
def plainTargets (settings : Settings) (source : Project) (results : List TargetResults) :
    List Target :=
  (source.targets.zip results).map fun (target, results) => (target.rebuild settings results).1

/-- `targets` are the `plain` ones, with an entry for each kept extension at the end of the first. -/
inductive Planted (source : Project) (kept : List String) : (plain targets : List Target) → Prop
  | nowhere (nothing : kept = []) : Planted source kept [] []
  | first {main : Target} {rest : List Target} {planted : List (String × BlockEntry)}
      (each : List.Forall₂ source.Represents kept planted)
      (distinct : (main.blocks.keys ++ planted.map (·.1)).Nodup) :
      Planted source kept (main :: rest)
        ({ main with blocks := ⟨main.blocks.entries ++ planted⟩ } :: rest)

/-- What becomes of the extensions of `source`. -/
structure Preserves (source : Project) (plain : List Target) (rebuilt : Project)
    (report : ExtensionReport) : Prop where
  kept : report.kept = source.extensions.filter (source.Uses ·)
  dropped : report.dropped = source.extensions.filter (¬ source.Uses ·)
  listed : rebuilt.extensions = withSupport report.kept
  targets : Planted source report.kept plain rebuilt.targets

variable {newId : List String → String} {settings : Settings} {helpers : Table String}
  {source rebuilt : Project} {report : RebuildReport} {results : List TargetResults}

/-- A rebuild succeeds with one list of results for each target. -/
theorem assemble_of_rebuild
    (done : source.rebuild newId settings helpers results = .ok (rebuilt, report)) :
    results.length = source.targets.length ∧
      source.assemble newId settings helpers (source.targets.zip results) = (rebuilt, report) := by
  unfold rebuild at done
  split at done
  next same => exact ⟨same, Except.ok.inj done⟩
  next => simp at done

theorem length_plainTargets (same : results.length = source.targets.length) :
    (source.plainTargets settings results).length = source.targets.length := by
  simp [plainTargets, same]

theorem plainTargets_distinct {plain : Target} (mem : plain ∈ source.plainTargets settings results) :
    plain.blocks.keys.Nodup := by
  obtain ⟨⟨target, results⟩, -, rfl⟩ := List.mem_map.mp mem
  exact Target.nodup_keys_rebuild settings target results

/-- What is kept and planted, and what the rebuilt list comes to. -/
theorem preserves_keepExtensions (fresh : ∀ used, newId used ∉ used) {plain : List Target}
    (length : plain.length = source.targets.length)
    (distinct : ∀ target ∈ plain, target.blocks.keys.Nodup)
    (isTargets : rebuilt.targets = (keepExtensions newId source plain).1)
    (isList : rebuilt.extensions =
      rebuiltExtensions source.extensions (keepExtensions newId source plain).2.kept) :
    source.Preserves plain rebuilt (keepExtensions newId source plain).2 := by
  cases plain with
  | nil =>
      have unused (extension : String) : ¬ source.Uses extension :=
        not_uses_of_targets_eq_nil (List.length_eq_zero_iff.mp length.symm)
      exact ⟨by simp [keepExtensions, unused], by simp [keepExtensions, unused],
        by simp [isList, keepExtensions, rebuiltExtensions, withSupport], isTargets ▸ .nowhere rfl⟩
  | cons main rest =>
      obtain ⟨planted, eq, each, unclaimed⟩ := source.exists_planted newId source.extensions main
      obtain ⟨allDistinct, entered⟩ := (unclaimed fresh).insertAll (distinct main (by simp))
      have targets : rebuilt.targets =
          { main with blocks := ⟨main.blocks.entries ++ planted⟩ } :: rest := by
        simp only [isTargets, keepExtensions, eq, entered]
      simp only [keepExtensions, eq] at isList ⊢
      refine ⟨rfl, rfl, isList.trans (rebuiltExtensions_filter _ _), ?_⟩
      rw [targets]
      exact .first (each.imp fun _ _ => PlantsFor.represents) allDistinct

theorem preserves_of_rebuild (fresh : ∀ used, newId used ∉ used)
    (done : source.rebuild newId settings helpers results = .ok (rebuilt, report)) :
    source.Preserves (source.plainTargets settings results) rebuilt report.extensions := by
  obtain ⟨same, assembled⟩ := assemble_of_rebuild done
  obtain ⟨rfl, rfl⟩ := Prod.mk.inj assembled
  have plain : ((source.targets.zip results).map fun (target, results) =>
      target.rebuild settings results).map (·.1) = source.plainTargets settings results := by
    rw [plainTargets, List.map_map]
    rfl
  rw [← plain]
  refine preserves_keepExtensions fresh ?_ (plain ▸ fun _ => plainTargets_distinct) rfl rfl
  rw [plain, length_plainTargets same]

/-! ## Rebuilding again -/

/-- The list of extensions is that of some used ones and of the support code. -/
def Settled (project : Project) : Prop :=
  ∃ kept, (∀ extension ∈ kept, project.Uses extension) ∧ project.extensions = withSupport kept

/-- An entry that represents an extension is a use of it. -/
theorem Represents.uses {extension : String} {entry : String × BlockEntry} {target : Target}
    (represents : source.Represents extension entry) (stored : entry ∈ target.blocks.entries)
    (mem : target ∈ rebuilt.targets) : rebuilt.Uses extension := by
  obtain ⟨block, isBlock, -, before, after, -, belongs, -⟩ := represents
  have inList : (entry.1, block) ∈ target.blockList :=
    List.mem_filterMap.mpr ⟨entry, stored, by simp [isBlock, BlockEntry.block?]⟩
  exact ⟨block.opcode, List.mem_flatMap.mpr ⟨target, mem, List.mem_map.mpr ⟨_, inList, rfl⟩⟩, belongs⟩

theorem Planted.uses {kept : List String} {plain targets : List Target}
    (planted : Planted source kept plain targets) (isTargets : rebuilt.targets = targets) :
    ∀ extension ∈ kept, rebuilt.Uses extension := by
  intro extension mem
  cases planted with
  | nowhere nothing => simp [nothing] at mem
  | @first main rest planted each distinct =>
      have reversed : List.Forall₂ (flip source.Represents) _ kept := List.Forall₂.flip each
      obtain ⟨entry, inPlanted, represents⟩ := exists_of_mem_right reversed mem
      have isFirst : { main with blocks := ⟨main.blocks.entries ++ planted⟩ } ∈ rebuilt.targets := by
        simp [isTargets]
      exact represents.uses (List.mem_append_right _ inPlanted) isFirst

/-- `later` is what any number of rebuilds make of `project`, each with results of its own. -/
inductive RebuiltAgain (project : Project) : Project → Prop
  | refl : RebuiltAgain project project
  | step {between later : Project} {newId : List String → String} {settings : Settings}
      {helpers : Table String} {results : List TargetResults} {report : RebuildReport}
      (earlier : RebuiltAgain project between) (fresh : ∀ used, newId used ∉ used)
      (done : between.rebuild newId settings helpers results = .ok (later, report)) :
      RebuiltAgain project later

theorem Preserves.settled {plain : List Target} {report : ExtensionReport}
    (preserves : source.Preserves plain rebuilt report) : rebuilt.Settled :=
  ⟨report.kept, preserves.targets.uses rfl, preserves.listed⟩

/-- Of a settled list a rebuild drops at most the support code, which it adds again. -/
theorem Preserves.extensions_of_settled {plain : List Target} {report : ExtensionReport}
    (preserves : source.Preserves plain rebuilt report) (settled : source.Settled) :
    rebuilt.extensions = source.extensions := by
  obtain ⟨kept, used, listed⟩ := settled
  rw [preserves.listed, preserves.kept, listed]
  exact withSupport_filter (by simpa using used)

theorem RebuiltAgain.stable {project later : Project} (again : project.RebuiltAgain later)
    (settled : project.Settled) : later.Settled ∧ later.extensions = project.extensions := by
  induction again with
  | refl => exact ⟨settled, rfl⟩
  | step _ fresh done ih =>
      have preserves := preserves_of_rebuild fresh done
      exact ⟨preserves.settled, (preserves.extensions_of_settled ih.1).trans ih.2⟩

/-- A rebuild keeps the extensions in use, in their order, and plants an invisible block with the first
opcode of each into the first target; nothing else is changed for them.  The list of extensions stays
as it is however often the program is rebuilt after that. -/
theorem used_extensions_are_kept_for_good (newId : List String → String) (settings : Settings)
    (helpers : Table String) (source : Project) (results : List TargetResults)
    (fresh : ∀ used, newId used ∉ used) (same : results.length = source.targets.length) :
    ∃ rebuilt report, source.rebuild newId settings helpers results = .ok (rebuilt, report) ∧
      source.Preserves (source.plainTargets settings results) rebuilt report.extensions ∧
      ∀ later, rebuilt.RebuiltAgain later → later.extensions = rebuilt.extensions := by
  have done : source.rebuild newId settings helpers results =
      .ok (source.assemble newId settings helpers (source.targets.zip results)) := if_pos same
  have preserves := preserves_of_rebuild fresh done
  exact ⟨_, _, done, preserves, fun later again => (again.stable preserves.settled).2⟩

/-- A stage whose only block is of one of the two extensions that are listed. -/
def penProgram : Project where
  targets := [⟨true, "Stage", .empty,
    Table.empty.insert "b" (.block { Block.bare "pen_clear" with topLevel := true }), .empty, .empty⟩]
  extensions := ["music", "pen"]
  extensionUrls := .empty
  extra := .empty

/-- Its block is lost, and the extension of the block stays listed. -/
theorem penProgram_keeps_pen :
    (∀ used, longerId used ∉ used) ∧ [TargetResults.mk .empty []].length = penProgram.targets.length ∧
    ∃ rebuilt report, penProgram.rebuild longerId .default .empty [⟨.empty, []⟩] = .ok (rebuilt, report) ∧
      (rebuilt.targets.map fun target => (target.block? "b").isSome) = [false] ∧
      rebuilt.extensions = ["pen", "precomp"] ∧
      ∀ later, rebuilt.RebuiltAgain later → later.extensions = ["pen", "precomp"] := by
  obtain ⟨rebuilt, report, done, preserves, stable⟩ := used_extensions_are_kept_for_good longerId
    .default .empty penProgram [⟨.empty, []⟩] longerId_not_mem rfl
  have listed : rebuilt.extensions = ["pen", "precomp"] := by
    rw [preserves.listed, preserves.kept]
    decide +kernel
  refine ⟨longerId_not_mem, rfl, rebuilt, report, done, ?_, listed, fun later again => ?_⟩
  · obtain ⟨rfl, -⟩ := Prod.mk.inj (Except.ok.inj done)
    decide +kernel
  · rw [stable later again, listed]

end Project

end StepCode
