import StepCode.Proofs.Rebuild.Links

/-!
# Definitions after a rebuild

A rebuild keeps the definitions of a target in their order and with their prototypes.  Behind a
definition stands the marker of its unit, or its old body if the unit has no step code.
-/

namespace StepCode

/-- Placing a block changes nothing but its position. -/
theorem Layout.exists_place_eq (grid : Grid) (cursor : Layout.Cursor) (block : Block) :
    ∃ x y, (Layout.place grid cursor block).1 = { block with x := x, y := y } := by
  unfold Layout.place
  split
  · exact ⟨block.x, block.y, rfl⟩
  · exact ⟨_, _, rfl⟩

/-! ## Who writes what -/

namespace Origin

variable {settings : Settings} {target : Target} {compiled : CompiledUnit} {id owner : String}
  {stored : BlockEntry} {block entry top : Block}

/-- A hat or definition is written for its own unit only, and as it was but for its position. -/
theorem of_entry (linked : target.EntriesLinked) (isTop : target.block? compiled.top = some top)
    (topEntry : top.isEntry = true) (found : target.block? id = some block)
    (isEntry : block.isEntry = true) (origin : Origin settings target compiled id stored) :
    compiled.top = id ∧ ∃ x y, stored = .block { block with x := x, y := y } := by
  have orphan := linked.parent_eq_none found isEntry
  cases origin with
  | kept plan inScript same =>
      refine ⟨(eq_root_of_orphan linked.distinct found orphan inScript).symm, block.x, block.y, ?_⟩
      exact Option.some.inj (same.symm.trans (Target.block?_eq_some.mp found))
  | moved isId plan =>
      subst isId
      obtain ⟨_, -, planned, -⟩ := CompiledUnit.plan_eq_ok.mp plan
      obtain rfl := Option.some.inj (planned.symm.trans found)
      obtain ⟨x, y, place⟩ := Layout.exists_place_eq settings.grid _ _
      exact ⟨rfl, x, y, congrArg BlockEntry.block place⟩
  | held plan slot inScript same =>
      obtain ⟨_, -, planned, -⟩ := CompiledUnit.plan_eq_ok.mp plan
      obtain rfl := Option.some.inj (planned.symm.trans isTop)
      obtain rfl := eq_root_of_orphan linked.distinct found orphan inScript
      have parent := linked.parent_of_slot isTop topEntry slot found
      exact absurd (orphan.symm.trans parent) (by simp)
  | planted plan behind =>
      obtain ⟨_, -, planned, -⟩ := CompiledUnit.plan_eq_ok.mp plan
      obtain rfl := Option.some.inj (planned.symm.trans isTop)
      have parent := linked.parent_of_next isTop topEntry behind found
      exact absurd (orphan.symm.trans parent) (by simp)

/-- What hangs off a hat or definition is written for its unit only: as the marker if it follows and
the unit is planted, and else as it was. -/
theorem of_child (linked : target.EntriesLinked) (isTop : target.block? compiled.top = some top)
    (topEntry : top.isEntry = true) (found : target.block? id = some block)
    (child : block.parent = some owner) (isOwner : target.block? owner = some entry)
    (isEntry : entry.isEntry = true) (origin : Origin settings target compiled id stored) :
    compiled.top = owner ∧
      ((stored = .block block ∧
          ∀ text, compiled.plan settings target = .ok (entry, text) → entry.next ≠ some id) ∨
        ∃ text, compiled.plan settings target = .ok (entry, text) ∧ entry.next = some id ∧
          stored = .block (.marker owner text)) := by
  have orphan := linked.parent_eq_none isOwner isEntry
  have notTop : compiled.top ≠ id := by
    rintro rfl
    obtain rfl := Option.some.inj (isTop.symm.trans found)
    exact absurd ((linked.parent_eq_none isTop topEntry).symm.trans child) (by simp)
  have copied : ∀ {stored}, target.blocks.get? id = some stored → stored = .block block := by
    intro stored same
    exact Option.some.inj (same.symm.trans (Target.block?_eq_some.mp found))
  cases origin with
  | kept plan inScript same =>
      rcases root_cases_of_child linked.distinct found child isOwner orphan inScript with isId | here
      · exact absurd isId notTop
      · exact ⟨here, .inl ⟨copied same, fun text planned => by simp [plan] at planned⟩⟩
  | moved isId plan => exact absurd isId.symm notTop
  | held plan slot inScript same =>
      obtain ⟨_, -, planned, -⟩ := CompiledUnit.plan_eq_ok.mp plan
      obtain rfl := Option.some.inj (planned.symm.trans isTop)
      rcases root_cases_of_child linked.distinct found child isOwner orphan inScript with rfl | rfl
      · have parent := linked.parent_of_slot isTop topEntry slot found
        obtain rfl := Option.some.inj (parent.symm.trans child)
        obtain rfl := Option.some.inj (isTop.symm.trans isOwner)
        exact ⟨rfl, .inl ⟨copied same, fun _ _ => linked.next_ne_slot isTop topEntry slot⟩⟩
      · have parent := linked.parent_of_slot isTop topEntry slot isOwner
        exact absurd (orphan.symm.trans parent) (by simp)
  | planted plan behind =>
      obtain ⟨_, -, planned, -⟩ := CompiledUnit.plan_eq_ok.mp plan
      obtain rfl := Option.some.inj (planned.symm.trans isTop)
      have parent := linked.parent_of_next isTop topEntry behind found
      obtain rfl := Option.some.inj (parent.symm.trans child)
      obtain rfl := Option.some.inj (isTop.symm.trans isOwner)
      exact ⟨rfl, .inr ⟨_, plan, behind, rfl⟩⟩

end Origin

/-! ## What is written -/

section

variable {settings : Settings} {target : Target} {results : TargetResults} {compiled : CompiledUnit}
  {id : String} {block : Block}

theorem CompiledUnit.mem_map_writesAll {units : List CompiledUnit} (mem : compiled ∈ units)
    (written : ∀ cursor, id ∈ (compiled.writes settings target cursor).map (·.1))
    (cursor : Layout.Cursor) : id ∈ (writesAll settings target cursor units).map (·.1) := by
  induction units generalizing cursor with
  | nil => simp at mem
  | cons first units ih =>
      rw [writesAll, List.map_append, List.mem_append]
      rcases List.mem_cons.mp mem with rfl | later
      · exact .inl (written cursor)
      · exact .inr (ih later _)

theorem Target.exists_get?_rebuild (mem : compiled ∈ results.units)
    (written : ∀ cursor, id ∈ (compiled.writes settings target cursor).map (·.1)) :
    ∃ stored, (target.rebuild settings results).1.blocks.get? id = some stored := by
  rw [Target.rebuild_blocks]
  refine Table.exists_get?_of_mem_keys ?_
  exact Table.mem_keys_insertAll.mpr (.inl (CompiledUnit.mem_map_writesAll mem written _))

theorem CompiledUnit.top_mem_writes (settings : Settings) (distinct : target.blocks.keys.Nodup)
    (found : target.block? compiled.top = some block) (cursor : Layout.Cursor) :
    compiled.top ∈ (compiled.writes settings target cursor).map (·.1) := by
  unfold writes
  split
  · have inScript := root_mem_scriptBlocks distinct found
    have stored := mem_scriptEntries.mpr ⟨inScript, Target.block?_eq_some.mp found⟩
    exact List.mem_map_of_mem stored
  · simp

theorem CompiledUnit.slot_mem_writes (settings : Settings) (linked : target.EntriesLinked)
    {top : Block} (isTop : target.block? compiled.top = some top) (topEntry : top.isEntry = true)
    {name : String} (slot : top.inputBlock? name = some id) (found : target.block? id = some block)
    (cursor : Layout.Cursor) : id ∈ (compiled.writes settings target cursor).map (·.1) := by
  unfold writes
  split
  · have parent := linked.parent_of_slot isTop topEntry slot found
    have inScript := child_mem_scriptBlocks linked.distinct found parent
    exact List.mem_map_of_mem (mem_scriptEntries.mpr ⟨inScript, Target.block?_eq_some.mp found⟩)
  next planned text plan =>
    obtain ⟨_, -, same, -⟩ := CompiledUnit.plan_eq_ok.mp plan
    obtain rfl := Option.some.inj (same.symm.trans isTop)
    have inScript := root_mem_scriptBlocks linked.distinct found
    have stored := mem_inputEntries.mpr ⟨name, id, slot, inScript, Target.block?_eq_some.mp found⟩
    refine List.mem_map_of_mem (List.mem_cons_of_mem _ (List.mem_append_left _ stored))

theorem CompiledUnit.next_mem_writes (settings : Settings) (linked : target.EntriesLinked)
    {top : Block} (isTop : target.block? compiled.top = some top) (topEntry : top.isEntry = true)
    (behind : top.next = some id) (found : target.block? id = some block)
    (cursor : Layout.Cursor) : id ∈ (compiled.writes settings target cursor).map (·.1) := by
  unfold writes
  split
  · have parent := linked.parent_of_next isTop topEntry behind found
    have inScript := child_mem_scriptBlocks linked.distinct found parent
    exact List.mem_map_of_mem (mem_scriptEntries.mpr ⟨inScript, Target.block?_eq_some.mp found⟩)
  next planned text plan =>
    obtain ⟨_, -, same, -⟩ := CompiledUnit.plan_eq_ok.mp plan
    obtain rfl := Option.some.inj (same.symm.trans isTop)
    simp [markerEntries, behind]

end

/-! ## What is found afterwards -/

/-- The chain of a body that is lowered begins at a block. -/
theorem Lowering.exists_first {place : Place} {id : String} {body : List Stmt}
    (lowered : Lowering.chain place (some id) = .ok body) :
    ∃ block, place.target.block? id = some block := by
  have lowers := follow_eq_ok.mp lowered
  generalize place.target.blocks.size = room at lowers
  cases lowers with
  | cons found => exact ⟨_, found⟩

section

variable {settings : Settings} {target : Target} {results : TargetResults} {compiled : CompiledUnit}
  {id next : String} {entry block : Block}

theorem Target.Lowers.exists_next {top : String} {script : Script} (lowers : target.Lowers top script)
    (distinct : target.blocks.keys.Nodup) (found : target.block? top = some entry)
    (behind : entry.next = some next) : ∃ block, target.block? next = some block := by
  cases lowers with
  | hat mem lowered =>
      have isHat := Target.block?_of_mem_blockList distinct (List.mem_filter.mp mem).1
      obtain rfl := Option.some.inj (isHat.symm.trans found)
      rw [behind] at lowered
      exact Lowering.exists_first lowered
  | definition mem _ lowered =>
      have isBlock := Target.block?_of_mem_blockList distinct (Target.mem_definitions.mp mem).1
      obtain rfl := Option.some.inj (isBlock.symm.trans found)
      rw [behind] at lowered
      exact Lowering.exists_first lowered

/-- What is planted stands in the place of a block. -/
theorem Target.exists_next_of_plan (compiledAll : target.compile? = some results)
    (distinct : target.blocks.keys.Nodup) (mem : compiled ∈ results.units) {text : String}
    (plan : compiled.plan settings target = .ok (entry, text)) (behind : entry.next = some next) :
    ∃ block, target.block? next = some block := by
  obtain ⟨body, ok, found, -⟩ := CompiledUnit.plan_eq_ok.mp plan
  obtain ⟨script, lowers, -⟩ := Target.exists_carries compiledAll mem ok
  exact lowers.exists_next distinct found behind

/-- Nothing is written under an id that no block had. -/
theorem Origin.exists_block {stored : BlockEntry} (origin : Origin settings target compiled id stored)
    (compiledAll : target.compile? = some results) (distinct : target.blocks.keys.Nodup)
    (mem : compiled ∈ results.units) : ∃ block, target.block? id = some block := by
  cases origin with
  | kept _ inScript _ =>
      obtain ⟨block, found, -⟩ := (mem_scriptBlocks distinct).mp inScript
      exact ⟨block, found⟩
  | held _ _ inScript _ =>
      obtain ⟨block, found, -⟩ := (mem_scriptBlocks distinct).mp inScript
      exact ⟨block, found⟩
  | moved isId plan =>
      obtain ⟨_, -, found, -⟩ := CompiledUnit.plan_eq_ok.mp plan
      exact ⟨_, isId ▸ found⟩
  | planted plan behind => exact Target.exists_next_of_plan compiledAll distinct mem plan behind

/-- A hat or definition with a unit is kept, up to its position. -/
theorem Target.get?_rebuild_top (settings : Settings)
    (compiledAll : target.compile? = some results) (linked : target.EntriesLinked)
    (mem : compiled ∈ results.units) (found : target.block? compiled.top = some entry) :
    ∃ x y, (target.rebuild settings results).1.blocks.get? compiled.top =
      some (.block { entry with x := x, y := y }) := by
  obtain ⟨top, isTop, isEntry⟩ := Target.top_isEntry compiledAll linked.distinct mem
  obtain rfl := Option.some.inj (isTop.symm.trans found)
  obtain ⟨stored, isStored⟩ := Target.exists_get?_rebuild mem
    (CompiledUnit.top_mem_writes settings linked.distinct isTop)
  obtain ⟨other, otherMem, origin⟩ := Target.origin_of_rebuild isStored
  obtain ⟨otherTop, isOther, otherEntry⟩ := Target.top_isEntry compiledAll linked.distinct otherMem
  obtain ⟨-, x, y, rfl⟩ := origin.of_entry linked isOther otherEntry isTop isEntry
  exact ⟨x, y, isStored⟩

/-- So is what its slots hold. -/
theorem Target.get?_rebuild_slot (settings : Settings)
    (compiledAll : target.compile? = some results) (linked : target.EntriesLinked)
    (mem : compiled ∈ results.units) (isTop : target.block? compiled.top = some entry) {name : String}
    (slot : entry.inputBlock? name = some id) (found : target.block? id = some block) :
    (target.rebuild settings results).1.blocks.get? id = some (.block block) := by
  obtain ⟨top, same, isEntry⟩ := Target.top_isEntry compiledAll linked.distinct mem
  obtain rfl := Option.some.inj (same.symm.trans isTop)
  obtain ⟨stored, isStored⟩ := Target.exists_get?_rebuild mem
    (CompiledUnit.slot_mem_writes settings linked isTop isEntry slot found)
  obtain ⟨other, otherMem, origin⟩ := Target.origin_of_rebuild isStored
  obtain ⟨otherTop, isOther, otherEntry⟩ := Target.top_isEntry compiledAll linked.distinct otherMem
  have parent := linked.parent_of_slot isTop isEntry slot found
  obtain ⟨-, ⟨rfl, -⟩ | ⟨text, -, behind, -⟩⟩ :=
    origin.of_child linked isOther otherEntry found parent isTop isEntry
  · exact isStored
  · exact absurd behind (linked.next_ne_slot isTop isEntry slot)

/-- Behind a hat or definition whose unit is planted stands its marker. -/
theorem Target.get?_rebuild_marker (compiledAll : target.compile? = some results)
    (linked : target.EntriesLinked) (mem : compiled ∈ results.units) {text : String}
    (plan : compiled.plan settings target = .ok (entry, text)) (behind : entry.next = some next) :
    (target.rebuild settings results).1.blocks.get? next =
      some (.block (.marker compiled.top text)) := by
  obtain ⟨_, -, isTop, -⟩ := CompiledUnit.plan_eq_ok.mp plan
  obtain ⟨top, same, isEntry⟩ := Target.top_isEntry compiledAll linked.distinct mem
  obtain rfl := Option.some.inj (same.symm.trans isTop)
  obtain ⟨block, found⟩ := Target.exists_next_of_plan compiledAll linked.distinct mem plan behind
  obtain ⟨stored, isStored⟩ := Target.exists_get?_rebuild mem
    (CompiledUnit.next_mem_writes settings linked isTop isEntry behind found)
  obtain ⟨other, otherMem, origin⟩ := Target.origin_of_rebuild isStored
  obtain ⟨otherTop, isOther, otherEntry⟩ := Target.top_isEntry compiledAll linked.distinct otherMem
  have parent := linked.parent_of_next isTop isEntry behind found
  obtain ⟨here, origins⟩ := origin.of_child linked isOther otherEntry found parent isTop isEntry
  obtain rfl := Target.eq_of_top_eq compiledAll linked.distinct mem otherMem here
  rcases origins with ⟨-, apart⟩ | ⟨shown, planned, -, rfl⟩
  · exact absurd behind (apart text plan)
  · have sameText := Except.ok.inj (planned.symm.trans plan)
    rw [isStored, (Prod.mk.inj sameText).2]

/-- Behind one whose blocks are kept stands what stood there. -/
theorem Target.get?_rebuild_kept (compiledAll : target.compile? = some results)
    (linked : target.EntriesLinked) (mem : compiled ∈ results.units)
    (isTop : target.block? compiled.top = some entry) {reason : String}
    (plan : compiled.plan settings target = .error reason) (behind : entry.next = some next)
    (found : target.block? next = some block) :
    (target.rebuild settings results).1.blocks.get? next = some (.block block) := by
  obtain ⟨top, same, isEntry⟩ := Target.top_isEntry compiledAll linked.distinct mem
  obtain rfl := Option.some.inj (same.symm.trans isTop)
  obtain ⟨stored, isStored⟩ := Target.exists_get?_rebuild mem
    (CompiledUnit.next_mem_writes settings linked isTop isEntry behind found)
  obtain ⟨other, otherMem, origin⟩ := Target.origin_of_rebuild isStored
  obtain ⟨otherTop, isOther, otherEntry⟩ := Target.top_isEntry compiledAll linked.distinct otherMem
  have parent := linked.parent_of_next isTop isEntry behind found
  obtain ⟨here, origins⟩ := origin.of_child linked isOther otherEntry found parent isTop isEntry
  obtain rfl := Target.eq_of_top_eq compiledAll linked.distinct mem otherMem here
  rcases origins with ⟨rfl, -⟩ | ⟨text, planned, -, -⟩
  · exact isStored
  · exact absurd (plan.symm.trans planned) (by simp)

end

/-! ## Prototypes -/

/-- Whether a definition stands under the id. -/
def Target.defines (target : Target) (id : String) : Bool :=
  (target.block? id).any fun block => block.opcode == definitionOpcode

/-- The prototype with the given signature in the definition under an id. -/
def Target.declared? (target : Target) (proccode id : String) : Option (String × Block) := do
  let definition ← target.block? id
  let inner ← definition.inputBlock? "custom_block"
  let prototype ← target.block? inner
  if target.defines id ∧ prototype.proccode? = some proccode then some (inner, prototype) else none

theorem Target.defines_iff {target : Target} {id : String} :
    target.defines id = true ↔
      ∃ block, target.block? id = some block ∧ block.opcode = definitionOpcode := by
  simp [Target.defines, Option.any_eq_true]

theorem Target.declared?_eq_none {target : Target} {proccode id : String}
    (other : target.defines id = false) : target.declared? proccode id = none := by
  simp [Target.declared?, other]

/-- Walking through the definitions is walking through all blocks and picking the definitions. -/
theorem Target.filterMap_definitions {α : Type} {target : Target}
    (distinct : target.blocks.keys.Nodup) (pick : Definition → Option α)
    (pickId : String → Option α)
    (agrees : ∀ definition, target.block? definition.id = some definition.block →
      definition.block.opcode = definitionOpcode →
      definition.prototype = (definition.block.inputBlock? "custom_block").bind target.block? →
      pick definition = pickId definition.id)
    (others : ∀ id, target.defines id = false → pickId id = none) :
    target.definitions.filterMap pick = target.blocks.keys.filterMap pickId := by
  unfold Target.definitions Target.blockList Table.keys
  rw [List.filterMap_filterMap, List.filterMap_filterMap, List.filterMap_map]
  refine List.filterMap_congr fun ⟨id, stored⟩ mem => ?_
  have found := Target.block?_of_mem_entries distinct mem
  cases stored with
  | primitive items =>
      have other : target.defines id = false := by simp [Target.defines, found, BlockEntry.block?]
      simp [BlockEntry.block?, others id other]
  | block block =>
      by_cases opcode : block.opcode = definitionOpcode
      · simpa [BlockEntry.block?, opcode] using agrees ⟨id, block, _⟩ found opcode rfl
      · have other : target.defines id = false := by
          simp [Target.defines, found, BlockEntry.block?, opcode]
        simp [BlockEntry.block?, opcode, others id other]

theorem Target.map_id_definitions {target : Target} (distinct : target.blocks.keys.Nodup) :
    target.definitions.map (·.id) = target.blocks.keys.filter target.defines := by
  rw [← List.filterMap_eq_map, ← List.filterMap_eq_filter]
  refine Target.filterMap_definitions distinct _ _ ?_ ?_
  · intro definition found opcode _
    have defines := Target.defines_iff.mpr ⟨_, found, opcode⟩
    simp [Option.guard, defines]
  · intro id other
    simp [Option.guard, other]

theorem Target.prototype?_eq {target : Target} (distinct : target.blocks.keys.Nodup)
    (proccode : String) :
    target.prototype? proccode = target.blocks.keys.findSome? (target.declared? proccode) := by
  unfold Target.prototype?
  rw [← List.head?_filterMap, ← List.head?_filterMap]
  refine congrArg _ (Target.filterMap_definitions distinct _ _ ?_ fun _ => Target.declared?_eq_none)
  intro definition found opcode prototype
  have defines := Target.defines_iff.mpr ⟨_, found, opcode⟩
  rw [prototype]
  cases slot : definition.block.inputBlock? "custom_block" with
  | none => simp [Target.declared?, found, slot]
  | some inner =>
      cases exist : target.block? inner with
      | none => simp [Target.declared?, found, slot, exist]
      | some block => simp [Target.declared?, found, slot, exist, defines]

/-! ## The rebuilt target -/

/-- No hat or definition hangs off a slot of another one. -/
theorem Target.EntriesLinked.notMem_scriptBlocks {target : Target} (linked : target.EntriesLinked)
    {id top name inner : String} {block entry : Block} (isTop : target.block? top = some entry)
    (topEntry : entry.isEntry = true) (slot : entry.inputBlock? name = some inner)
    (found : target.block? id = some block) (isEntry : block.isEntry = true) :
    id ∉ scriptBlocks target.blocks inner := by
  intro inScript
  have orphan := linked.parent_eq_none found isEntry
  obtain rfl := eq_root_of_orphan linked.distinct found orphan inScript
  have parent := linked.parent_of_slot isTop topEntry slot found
  exact absurd (orphan.symm.trans parent) (by simp)

/-- A list without repetitions of which one member alone is selected. -/
theorem filter_eq_of_only {selects : String → Bool} {items : List String} (distinct : items.Nodup)
    {item : String} (mem : item ∈ items) (only : ∀ other ∈ items, selects other = true → other = item) :
    items.filter selects = [item].filter selects := by
  induction items with
  | nil => simp at mem
  | cons first rest ih =>
      obtain ⟨absent, distinctRest⟩ := List.nodup_cons.mp distinct
      by_cases here : first = item
      · subst here
        have none : rest.filter selects = [] := by
          refine List.filter_eq_nil_iff.mpr fun other inRest selected => ?_
          exact absent (only other (by simp [inRest]) selected ▸ inRest)
        rw [← List.singleton_append, List.filter_append, none, List.append_nil]
      · have inRest : item ∈ rest := (List.mem_cons.mp mem).resolve_left (Ne.symm here)
        have skipped : ¬ selects first = true := fun selected => here (only first (by simp) selected)
        rw [List.filter_cons_of_neg skipped]
        exact ih distinctRest inRest fun other later => only other (List.mem_cons_of_mem _ later)

section

variable {newId : List String → String} {settings : Settings} {before after : Target}
  {results : TargetResults} {compiled : CompiledUnit}

/-- The selected ids are those of hats and definitions. -/
def Target.SelectsEntries (target : Target) (selects : String → Bool) : Prop :=
  ∀ id, selects id = true → ∃ block, target.block? id = some block ∧ block.isEntry = true

theorem Target.selectsEntries_defines (target : Target) : target.SelectsEntries target.defines := by
  intro id defines
  obtain ⟨block, found, opcode⟩ := Target.defines_iff.mp defines
  exact ⟨block, found, by simp [Block.isEntry, opcode]⟩

variable {selects : String → Bool}

/-- Of the hats and definitions a unit writes its own top block only. -/
theorem CompiledUnit.filter_writes (settings : Settings) (compiledAll : before.compile? = some results)
    (linked : before.EntriesLinked) (entries : before.SelectsEntries selects)
    (mem : compiled ∈ results.units) (cursor : Layout.Cursor) :
    ((compiled.writes settings before cursor).map (·.1)).filter selects =
      [compiled.top].filter selects := by
  obtain ⟨top, isTop, topEntry⟩ := Target.top_isEntry compiledAll linked.distinct mem
  unfold writes
  split
  next =>
    rw [map_fst_scriptEntries]
    refine filter_eq_of_only (nodup_scriptBlocks linked.distinct _)
      (root_mem_scriptBlocks linked.distinct isTop) fun id inScript selected => ?_
    obtain ⟨block, found, entry⟩ := entries id selected
    exact eq_root_of_orphan linked.distinct found (linked.parent_eq_none found entry) inScript
  next planned text plan =>
    obtain ⟨_, -, same, -⟩ := CompiledUnit.plan_eq_ok.mp plan
    obtain rfl := Option.some.inj (same.symm.trans isTop)
    have others : ((inputEntries before.blocks planned ++
        markerEntries compiled.top planned text).map (·.1)).filter selects = [] := by
      refine List.filter_eq_nil_iff.mpr fun id mem selected => ?_
      obtain ⟨block, found, entry⟩ := entries id selected
      obtain ⟨⟨_, stored⟩, written, rfl⟩ := List.mem_map.mp mem
      rcases List.mem_append.mp written with input | marker
      · obtain ⟨name, inner, slot, inScript, -⟩ := mem_inputEntries.mp input
        exact linked.notMem_scriptBlocks isTop topEntry slot found entry inScript
      · obtain ⟨behind, -⟩ := CompiledUnit.mem_markerEntries.mp marker
        have parent := linked.parent_of_next isTop topEntry behind found
        exact absurd ((linked.parent_eq_none found entry).symm.trans parent) (by simp)
    rw [List.map_cons, ← List.singleton_append, List.filter_append, others, List.append_nil]

theorem CompiledUnit.filter_writesAll (settings : Settings)
    (compiledAll : before.compile? = some results) (linked : before.EntriesLinked)
    (entries : before.SelectsEntries selects) {units : List CompiledUnit}
    (mem : ∀ compiled ∈ units, compiled ∈ results.units) (cursor : Layout.Cursor) :
    ((writesAll settings before cursor units).map (·.1)).filter selects =
      (units.map (·.top)).filter selects := by
  induction units generalizing cursor with
  | nil => rfl
  | cons first units ih =>
      have later := ih (fun compiled inUnits => mem compiled (List.mem_cons_of_mem _ inUnits))
      have here := filter_writes settings compiledAll linked entries (mem first (by simp)) cursor
      rw [writesAll, List.map_append, List.filter_append, later, here, ← List.filter_append]
      rfl

namespace Target.Rebuilt

/-- What is written for a unit is found in the rebuilt target. -/
theorem get?_of_rebuild (rebuilt : Target.Rebuilt newId settings before results after)
    (fresh : ∀ used, newId used ∉ used) {id : String} {stored : BlockEntry}
    (found : (before.rebuild settings results).1.blocks.get? id = some stored) :
    after.blocks.get? id = some stored := by
  obtain ⟨extras, added, rfl⟩ := rebuilt.isAfter
  have absent : id ∉ extras.map (·.1) := by
    intro mem
    obtain ⟨extra, isExtra, rfl⟩ := List.mem_map.mp mem
    exact added.isNew fresh extra isExtra (Table.mem_keys_of_get? found)
  exact (Table.get?_insertAll_of_notMem absent).trans found

theorem nodup_keys (rebuilt : Target.Rebuilt newId settings before results after) :
    after.blocks.keys.Nodup := by
  obtain ⟨extras, -, rfl⟩ := rebuilt.isAfter
  rw [Target.rebuild_blocks]
  exact Table.nodup_keys_insertAll (Table.nodup_keys_insertAll List.nodup_nil)

/-- Every definition has a unit. -/
theorem exists_unit (rebuilt : Target.Rebuilt newId settings before results after)
    (linked : before.EntriesLinked) {id : String} {block : Block}
    (found : before.block? id = some block) (opcode : block.opcode = definitionOpcode) :
    ∃ compiled ∈ results.procedures, compiled.top = id := by
  have defines := Target.defines_iff.mpr ⟨block, found, opcode⟩
  have inKeys := Table.mem_keys_of_get? (Target.block?_eq_some.mp found)
  have inTops : id ∈ results.procedures.map (·.top) := by
    rw [Target.map_top_procedures rebuilt.outcomes, Target.map_id_definitions linked.distinct]
    exact List.mem_filter.mpr ⟨inKeys, defines⟩
  exact List.mem_map.mp inTops

/-- Hats and definitions keep the order of their units. -/
theorem filter_keys (rebuilt : Target.Rebuilt newId settings before results after)
    (fresh : ∀ used, newId used ∉ used) (linked : before.EntriesLinked)
    (entries : before.SelectsEntries selects)
    (tops : (results.units.map (·.top)).filter selects = before.blocks.keys.filter selects) :
    after.blocks.keys.filter selects = before.blocks.keys.filter selects := by
  have written : ((before.rebuildWrites settings results).map (·.1)).filter selects =
      before.blocks.keys.filter selects := by
    rw [Target.rebuildWrites, CompiledUnit.filter_writesAll settings rebuilt.outcomes linked entries
      (fun _ mem => mem), tops]
  have distinct : (before.blocks.keys.filter selects).Nodup := linked.distinct.filter _
  have plain : (before.rebuild settings results).1.blocks.keys.filter selects =
      before.blocks.keys.filter selects := by
    rw [Target.rebuild_blocks, Table.filter_keys_insertAll, written]
    · rfl
    · rw [written]
      exact distinct
    · intro name _ _ inEmpty
      simp [Table.keys, Table.empty] at inEmpty
  obtain ⟨extras, added, rfl⟩ := rebuilt.isAfter
  have others : ∀ id ∈ extras.map (·.1), ¬ selects id = true := by
    intro id mem selected
    obtain ⟨extra, isExtra, rfl⟩ := List.mem_map.mp mem
    obtain ⟨block, found, -⟩ := entries _ selected
    have inKeys := Table.mem_keys_of_get? (Target.block?_eq_some.mp found)
    have kept := plain ▸ List.mem_filter.mpr ⟨inKeys, selected⟩
    exact added.isNew fresh extra isExtra (List.mem_filter.mp kept).1
  have none := List.filter_eq_nil_iff.mpr others
  rw [Table.filter_keys_insertAll, plain, none, List.append_nil]
  · rw [none]
    exact List.nodup_nil
  · intro name mem selected
    exact absurd selected (others name mem)

/-- The definitions keep their order. -/
theorem filter_keys_defines (rebuilt : Target.Rebuilt newId settings before results after)
    (fresh : ∀ used, newId used ∉ used) (linked : before.EntriesLinked) :
    after.blocks.keys.filter before.defines = before.blocks.keys.filter before.defines := by
  refine rebuilt.filter_keys fresh linked before.selectsEntries_defines ?_
  have hats : (results.hats.values.map (·.top)).filter before.defines = [] := by
    refine List.filter_eq_nil_iff.mpr fun id mem defines => ?_
    obtain ⟨compiled, isUnit, rfl⟩ := List.mem_map.mp mem
    obtain ⟨hat, found, isHat⟩ := Target.top_isHat rebuilt.outcomes linked.distinct isUnit
    obtain ⟨block, same, opcode⟩ := Target.defines_iff.mp defines
    obtain rfl := Option.some.inj (same.symm.trans found)
    exact Block.opcode_ne_of_isHat isHat opcode
  rw [TargetResults.units, List.map_append, List.filter_append, hats, List.nil_append,
    Target.map_top_procedures rebuilt.outcomes, Target.map_id_definitions linked.distinct,
    List.filter_filter]
  simp

/-- A block of the rebuilt target stood there before, up to its position, or it is a marker or a
placeholder. -/
theorem block_cases (rebuilt : Target.Rebuilt newId settings before results after) {id : String}
    {block : Block} (found : after.block? id = some block) :
    (∃ old x y, before.block? id = some old ∧ block = { old with x := x, y := y }) ∨
      (∃ parent text, block = .marker parent text) ∨ ∃ opcode, block = .placeholder opcode := by
  have copied : before.blocks.get? id = some (.block block) →
      ∃ old x y, before.block? id = some old ∧ block = { old with x := x, y := y } :=
    fun stored => ⟨block, block.x, block.y, Target.block?_eq_some.mpr stored, rfl⟩
  rcases rebuilt.get?_cases (Target.block?_eq_some.mp found) with ⟨other, placeholder⟩ |
    ⟨compiled, mem, origin⟩
  · exact .inr (.inr ⟨other, BlockEntry.block.inj placeholder⟩)
  · generalize same : BlockEntry.block block = stored at origin
    cases origin with
    | kept _ _ isStored => exact .inl (copied (same ▸ isStored))
    | held _ _ _ isStored => exact .inl (copied (same ▸ isStored))
    | @moved top _ cursor isId plan =>
        obtain ⟨_, -, planned, -⟩ := CompiledUnit.plan_eq_ok.mp plan
        obtain ⟨x, y, place⟩ := Layout.exists_place_eq settings.grid cursor top
        exact .inl ⟨top, x, y, isId ▸ planned, (BlockEntry.block.inj same).trans place⟩
    | planted _ _ => exact .inr (.inl ⟨_, _, BlockEntry.block.inj same⟩)

/-- A definition of the rebuilt target was one before, or it is a placeholder. -/
theorem defines_or_placeholder (rebuilt : Target.Rebuilt newId settings before results after)
    {id : String} {block : Block} (found : after.block? id = some block)
    (opcode : block.opcode = definitionOpcode) :
    before.defines id = true ∨ ∃ opcode, block = .placeholder opcode := by
  rcases rebuilt.block_cases found with ⟨old, x, y, wasOld, rfl⟩ | ⟨parent, text, rfl⟩ | placeholder
  · exact .inl (Target.defines_iff.mpr ⟨old, wasOld, opcode⟩)
  · simp [Block.marker, Block.bare, markerOpcode, definitionOpcode] at opcode
  · exact .inr placeholder

/-- A block that stands where none stood before is a placeholder. -/
theorem eq_placeholder (rebuilt : Target.Rebuilt newId settings before results after)
    (linked : before.EntriesLinked) {id : String} (absent : before.block? id = none) {block : Block}
    (found : after.block? id = some block) : ∃ opcode, block = .placeholder opcode := by
  rcases rebuilt.get?_cases (Target.block?_eq_some.mp found) with ⟨opcode, placeholder⟩ |
    ⟨compiled, mem, origin⟩
  · exact ⟨opcode, BlockEntry.block.inj placeholder⟩
  · obtain ⟨other, isOther⟩ := origin.exists_block rebuilt.outcomes linked.distinct mem
    exact absurd (absent.symm.trans isOther) (by simp)

/-- A definition declares what it declared, and no other block declares anything. -/
theorem declared?_eq (rebuilt : Target.Rebuilt newId settings before results after)
    (fresh : ∀ used, newId used ∉ used) (linked : before.EntriesLinked) (proccode id : String) :
    after.declared? proccode id = before.declared? proccode id := by
  cases defines : before.defines id with
  | false =>
      rw [Target.declared?_eq_none defines]
      cases definesAfter : after.defines id with
      | false => exact Target.declared?_eq_none definesAfter
      | true =>
          obtain ⟨block, found, opcode⟩ := Target.defines_iff.mp definesAfter
          rcases rebuilt.defines_or_placeholder found opcode with before | ⟨_, rfl⟩
          · exact absurd (defines.symm.trans before) (by decide)
          · have empty : ∀ opcode, (Block.placeholder opcode).inputBlock? "custom_block" = none :=
              fun _ => rfl
            simp [Target.declared?, found, empty]
  | true =>
      obtain ⟨definition, found, opcode⟩ := Target.defines_iff.mp defines
      obtain ⟨compiled, inProcedures, rfl⟩ := rebuilt.exists_unit linked found opcode
      have mem : compiled ∈ results.units := List.mem_append_right _ inProcedures
      obtain ⟨x, y, kept⟩ := Target.get?_rebuild_top settings rebuilt.outcomes linked mem found
      have isAfter := Target.block?_eq_some.mpr (rebuilt.get?_of_rebuild fresh kept)
      have definesAfter := Target.defines_iff.mpr ⟨_, isAfter, opcode⟩
      have sameSlot : ({ definition with x := x, y := y } : Block).inputBlock? "custom_block" =
          definition.inputBlock? "custom_block" := rfl
      simp only [Target.declared?, found, isAfter, defines, definesAfter, sameSlot, true_and,
        Option.bind_eq_bind, Option.bind_some]
      cases slot : definition.inputBlock? "custom_block" with
      | none => rfl
      | some inner =>
          cases exist : before.block? inner with
          | some prototype =>
              have held := Target.get?_rebuild_slot settings rebuilt.outcomes linked mem found slot exist
              have isHeld := Target.block?_eq_some.mpr (rebuilt.get?_of_rebuild fresh held)
              simp [isHeld, exist]
          | none =>
              cases existAfter : after.block? inner with
              | none => simp [exist, existAfter]
              | some block =>
                  obtain ⟨_, rfl⟩ := rebuilt.eq_placeholder linked exist existAfter
                  simp [exist, existAfter, Block.placeholder, Block.bare, Block.proccode?]

/-- A rebuild leaves the prototypes as they are. -/
theorem prototype?_eq (rebuilt : Target.Rebuilt newId settings before results after)
    (fresh : ∀ used, newId used ∉ used) (linked : before.EntriesLinked) (proccode : String) :
    after.prototype? proccode = before.prototype? proccode := by
  have onlyDefinitions : ∀ ids : List String, ids.filterMap (before.declared? proccode) =
      (ids.filter before.defines).filterMap (before.declared? proccode) := by
    intro ids
    rw [List.filterMap_filter]
    refine List.filterMap_congr fun id _ => ?_
    cases defines : before.defines id with
    | false => simp [Target.declared?_eq_none defines]
    | true => simp
  have same : after.declared? proccode = before.declared? proccode :=
    funext (rebuilt.declared?_eq fresh linked proccode)
  rw [Target.prototype?_eq rebuilt.nodup_keys, Target.prototype?_eq linked.distinct, same,
    ← List.head?_filterMap, ← List.head?_filterMap, onlyDefinitions,
    rebuilt.filter_keys_defines fresh linked, ← onlyDefinitions]

end Target.Rebuilt

end

/-! ## Markers of procedures -/

/-- With agreeing links a prototype hangs off the definition that holds it. -/
theorem Target.exists_holder {target : Target} (linked : target.EntriesLinked)
    {proccode inner : String} {prototype : Block}
    (declared : target.prototype? proccode = some (inner, prototype)) :
    ∃ owner definition, prototype.parent = some owner ∧ target.block? owner = some definition ∧
      definition.opcode = definitionOpcode ∧ definition.inputBlock? "custom_block" = some inner ∧
      target.block? inner = some prototype ∧ prototype.proccode? = some proccode := by
  rw [Target.prototype?_eq linked.distinct] at declared
  obtain ⟨id, -, declares⟩ := List.exists_of_findSome?_eq_some declared
  simp only [Target.declared?, Option.bind_eq_bind, Option.bind_eq_some_iff] at declares
  obtain ⟨definition, found, held, slot, block, exist, same⟩ := declares
  split at same
  next defines =>
    obtain ⟨rfl, rfl⟩ := Prod.mk.inj (Option.some.inj same)
    obtain ⟨other, again, opcode⟩ := Target.defines_iff.mp defines.1
    obtain rfl : other = definition := Option.some.inj (again.symm.trans found)
    have isEntry : other.isEntry = true := by simp [Block.isEntry, opcode]
    exact ⟨id, other, linked.parent_of_slot found isEntry slot exist, found, opcode, slot, exist,
      defines.2⟩
  next => simp at same

theorem Target.exists_owner {target : Target} (linked : target.EntriesLinked)
    {proccode inner : String} {prototype : Block}
    (declared : target.prototype? proccode = some (inner, prototype)) :
    ∃ owner definition, prototype.parent = some owner ∧ target.block? owner = some definition ∧
      definition.opcode = definitionOpcode := by
  obtain ⟨owner, definition, parent, found, opcode, -⟩ := Target.exists_holder linked declared
  exact ⟨owner, definition, parent, found, opcode⟩

theorem Block.inputText?_marker (parent text : String) :
    (Block.marker parent text).inputText? markerInput = some text := rfl

/-- What follows the definition that the prototype hangs off. -/
theorem Target.procedureMarker?_eq {target : Target} {proccode inner owner : String}
    {prototype definition : Block} (declared : target.prototype? proccode = some (inner, prototype))
    (parent : prototype.parent = some owner) (found : target.block? owner = some definition) :
    target.procedureMarker? proccode = definition.next.bind fun id =>
      (target.block? id).bind fun marker =>
        if marker.opcode = markerOpcode then
          (target.markerSource? marker).bind fun text => some (id, text)
        else none := by
  simp [Target.procedureMarker?, declared, parent, found]

section

variable {newId : List String → String} {settings : Settings} {before after : Target}
  {results : TargetResults} {compiled : CompiledUnit} {proccode inner next : String}
  {prototype definition : Block}

/-- The marker of a procedure whose unit is planted carries the text of the unit. -/
theorem Target.Rebuilt.procedureMarker?_of_plan
    (rebuilt : Target.Rebuilt newId settings before results after)
    (fresh : ∀ used, newId used ∉ used) (linked : before.EntriesLinked)
    (mem : compiled ∈ results.units)
    (declared : before.prototype? proccode = some (inner, prototype))
    (parent : prototype.parent = some compiled.top) {text : String}
    (plan : compiled.plan settings before = .ok (definition, text))
    (behind : definition.next = some next) :
    after.procedureMarker? proccode = some (next, text) ∧
      after.block? next = some (.marker compiled.top text) := by
  obtain ⟨_, -, found, -⟩ := CompiledUnit.plan_eq_ok.mp plan
  obtain ⟨x, y, kept⟩ := Target.get?_rebuild_top settings rebuilt.outcomes linked mem found
  have isAfter := Target.block?_eq_some.mpr (rebuilt.get?_of_rebuild fresh kept)
  have planted := Target.get?_rebuild_marker rebuilt.outcomes linked mem plan behind
  have isMarker := Target.block?_eq_some.mpr (rebuilt.get?_of_rebuild fresh planted)
  have declaredAfter := (rebuilt.prototype?_eq fresh linked proccode).trans declared
  have isOpcode : (Block.marker compiled.top text).opcode = markerOpcode := rfl
  refine ⟨?_, isMarker⟩
  rw [Target.procedureMarker?_eq declaredAfter parent isAfter]
  simp [behind, isMarker, isOpcode, Target.markerSource?, Block.inputText?_marker]

/-- A procedure whose blocks are kept has no marker, unless its body began with one before. -/
theorem Target.Rebuilt.procedureMarker?_of_kept
    (rebuilt : Target.Rebuilt newId settings before results after)
    (fresh : ∀ used, newId used ∉ used) (linked : before.EntriesLinked)
    (mem : compiled ∈ results.units)
    (declared : before.prototype? proccode = some (inner, prototype))
    (parent : prototype.parent = some compiled.top)
    (found : before.block? compiled.top = some definition) {reason : String}
    (plan : compiled.plan settings before = .error reason) (behind : definition.next = some next)
    (unmarked : ∀ block, before.block? next = some block → block.opcode ≠ markerOpcode) :
    after.procedureMarker? proccode = none := by
  obtain ⟨x, y, kept⟩ := Target.get?_rebuild_top settings rebuilt.outcomes linked mem found
  have isAfter := Target.block?_eq_some.mpr (rebuilt.get?_of_rebuild fresh kept)
  have declaredAfter := (rebuilt.prototype?_eq fresh linked proccode).trans declared
  rw [Target.procedureMarker?_eq declaredAfter parent isAfter]
  simp only [behind, Option.bind_some]
  cases isNext : after.block? next with
  | none => rfl
  | some marker =>
      cases wasNext : before.block? next with
      | none =>
          obtain ⟨opcode, rfl⟩ := rebuilt.eq_placeholder linked wasNext isNext
          have empty : after.markerSource? (.placeholder opcode) = none := rfl
          simp [empty]
      | some block =>
          have stored := Target.get?_rebuild_kept rebuilt.outcomes linked mem found plan behind wasNext
          have isBlock := Target.block?_eq_some.mpr (rebuilt.get?_of_rebuild fresh stored)
          obtain rfl := Option.some.inj (isNext.symm.trans isBlock)
          simp [unmarked marker wasNext]

end

end StepCode
