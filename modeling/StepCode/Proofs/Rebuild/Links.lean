import StepCode.Proofs.Rebuild.Planted

/-!
# Entry blocks and their links

Scripts begin at hats and definitions.  If what follows them and what their slots hold hangs off them
and off nothing else, the units of a target do not write over one another.
-/

namespace StepCode

/-- A hat that starts a script, or a definition. -/
def Block.isEntry (block : Block) : Bool :=
  (block.topLevel && block.isHat) || block.opcode == definitionOpcode

/-- The links of the hats and definitions of a target agree in both directions. -/
structure Target.EntriesLinked (target : Target) : Prop where
  /-- No two blocks have the same id. -/
  distinct : target.blocks.keys.Nodup
  /-- Hats and definitions hang off nothing. -/
  root : ∀ entry ∈ target.blockList, entry.2.isEntry = true → entry.2.parent = none
  /-- What follows them hangs off them. -/
  follower : ∀ entry ∈ target.blockList, entry.2.isEntry = true → ∀ next ∈ entry.2.next,
    ∀ block ∈ target.block? next, block.parent = some entry.1
  /-- So does what their slots hold. -/
  held : ∀ entry ∈ target.blockList, entry.2.isEntry = true → ∀ name ∈ entry.2.inputs.keys,
    ∀ inner ∈ entry.2.inputBlock? name, ∀ block ∈ target.block? inner, block.parent = some entry.1
  /-- What follows them is in none of their slots. -/
  apart : ∀ entry ∈ target.blockList, entry.2.isEntry = true → ∀ name ∈ entry.2.inputs.keys,
    ∀ inner ∈ entry.2.inputBlock? name, entry.2.next ≠ some inner

instance (target : Target) : Decidable target.EntriesLinked :=
  decidable_of_iff
    (target.blocks.keys.Nodup ∧
      (∀ entry ∈ target.blockList, entry.2.isEntry = true → entry.2.parent = none) ∧
      (∀ entry ∈ target.blockList, entry.2.isEntry = true → ∀ next ∈ entry.2.next,
        ∀ block ∈ target.block? next, block.parent = some entry.1) ∧
      (∀ entry ∈ target.blockList, entry.2.isEntry = true → ∀ name ∈ entry.2.inputs.keys,
        ∀ inner ∈ entry.2.inputBlock? name, ∀ block ∈ target.block? inner,
          block.parent = some entry.1) ∧
      ∀ entry ∈ target.blockList, entry.2.isEntry = true → ∀ name ∈ entry.2.inputs.keys,
        ∀ inner ∈ entry.2.inputBlock? name, entry.2.next ≠ some inner)
    ⟨fun h => ⟨h.1, h.2.1, h.2.2.1, h.2.2.2.1, h.2.2.2.2⟩,
      fun h => ⟨h.distinct, h.root, h.follower, h.held, h.apart⟩⟩

namespace Target.EntriesLinked

variable {target : Target} {id name inner next : String} {entry block : Block}

theorem parent_eq_none (linked : target.EntriesLinked) (found : target.block? id = some entry)
    (isEntry : entry.isEntry = true) : entry.parent = none :=
  linked.root _ (Target.mem_blockList_of_block? found) isEntry

theorem parent_of_next (linked : target.EntriesLinked) (found : target.block? id = some entry)
    (isEntry : entry.isEntry = true) (follows : entry.next = some next)
    (exist : target.block? next = some block) : block.parent = some id :=
  linked.follower _ (Target.mem_blockList_of_block? found) isEntry next follows block exist

theorem parent_of_slot (linked : target.EntriesLinked) (found : target.block? id = some entry)
    (isEntry : entry.isEntry = true) (slot : entry.inputBlock? name = some inner)
    (exist : target.block? inner = some block) : block.parent = some id :=
  linked.held _ (Target.mem_blockList_of_block? found) isEntry name (Block.mem_inputs_keys slot) inner
    slot block exist

theorem next_ne_slot (linked : target.EntriesLinked) (found : target.block? id = some entry)
    (isEntry : entry.isEntry = true) (slot : entry.inputBlock? name = some inner) :
    entry.next ≠ some inner :=
  linked.apart _ (Target.mem_blockList_of_block? found) isEntry name (Block.mem_inputs_keys slot) inner
    slot

end Target.EntriesLinked

/-! ## Scripts -/

theorem leadsTo_none (blocks : Table BlockEntry) (root : String) (hops : Nat) :
    leadsTo blocks root hops none = false := by
  cases hops <;> rfl

/-- Following parent links from a block that hangs off nothing ends there. -/
theorem leadsTo_of_orphan {target : Target} {id root : String} {block : Block}
    (found : target.block? id = some block) (orphan : block.parent = none) (hops : Nat) :
    leadsTo target.blocks root (hops + 1) (some id) = (id == root) := by
  have parent : (blockIn target.blocks id).bind Block.parent = none := by
    rw [show blockIn target.blocks id = some block from found, Option.bind_some, orphan]
  rw [leadsTo, parent, leadsTo_none, Bool.or_false]

theorem mem_scriptBlocks {target : Target} (distinct : target.blocks.keys.Nodup) {id root : String} :
    id ∈ scriptBlocks target.blocks root ↔
      ∃ block, target.block? id = some block ∧
        (id = root ∨ leadsTo target.blocks root (target.blocks.size + 1) block.parent = true) := by
  simp only [scriptBlocks, List.mem_map, List.mem_filter]
  constructor
  · rintro ⟨⟨_, entry⟩, ⟨stored, inScript⟩, rfl⟩
    cases entry with
    | primitive items => simp at inScript
    | block block =>
        have found := Target.block?_eq_some.mpr (Table.get?_of_mem_entries distinct stored)
        exact ⟨block, found, by simpa using inScript⟩
  · rintro ⟨block, found, inScript⟩
    have stored := Table.mem_entries_of_get? (Target.block?_eq_some.mp found)
    exact ⟨(id, .block block), ⟨stored, by simpa using inScript⟩, rfl⟩

theorem nodup_scriptBlocks {blocks : Table BlockEntry} (distinct : blocks.keys.Nodup)
    (root : String) : (scriptBlocks blocks root).Nodup :=
  (List.Sublist.map Prod.fst List.filter_sublist).nodup distinct

section

variable {target : Target} {id root owner : String} {block entry : Block}

theorem root_mem_scriptBlocks (distinct : target.blocks.keys.Nodup)
    (found : target.block? root = some block) : root ∈ scriptBlocks target.blocks root :=
  (mem_scriptBlocks distinct).mpr ⟨block, found, .inl rfl⟩

theorem child_mem_scriptBlocks (distinct : target.blocks.keys.Nodup)
    (found : target.block? id = some block) (child : block.parent = some root) :
    id ∈ scriptBlocks target.blocks root := by
  refine (mem_scriptBlocks distinct).mpr ⟨block, found, .inr ?_⟩
  rw [child, leadsTo, beq_self_eq_true, Bool.true_or]

/-- A block that hangs off nothing is in no script but its own. -/
theorem eq_root_of_orphan (distinct : target.blocks.keys.Nodup)
    (found : target.block? id = some block) (orphan : block.parent = none)
    (mem : id ∈ scriptBlocks target.blocks root) : id = root := by
  obtain ⟨other, same, inScript⟩ := (mem_scriptBlocks distinct).mp mem
  obtain rfl := Option.some.inj (found.symm.trans same)
  rcases inScript with isRoot | leads
  · exact isRoot
  · rw [orphan, leadsTo_none] at leads
    exact absurd leads (by decide)

/-- A block that hangs off an orphan is in the scripts of the two only. -/
theorem root_cases_of_child (distinct : target.blocks.keys.Nodup)
    (found : target.block? id = some block) (child : block.parent = some owner)
    (isOwner : target.block? owner = some entry) (orphan : entry.parent = none)
    (mem : id ∈ scriptBlocks target.blocks root) : root = id ∨ root = owner := by
  obtain ⟨other, same, inScript⟩ := (mem_scriptBlocks distinct).mp mem
  obtain rfl := Option.some.inj (found.symm.trans same)
  rcases inScript with isRoot | leads
  · exact .inl isRoot.symm
  · rw [child, leadsTo_of_orphan isOwner orphan, beq_iff_eq] at leads
    exact .inr leads.symm

end

/-! ## Units -/

theorem Target.block?_of_mem_entries {target : Target} (distinct : target.blocks.keys.Nodup)
    {id : String} {stored : BlockEntry} (mem : (id, stored) ∈ target.blocks.entries) :
    target.block? id = stored.block? := by
  rw [Target.block?, blockIn, Table.get?_of_mem_entries distinct mem, Option.bind_some]

/-- The ids of the blocks of a kind, in table order. -/
theorem Target.map_fst_filter_blockList {target : Target} (distinct : target.blocks.keys.Nodup)
    (selects : Block → Bool) :
    (target.blockList.filter fun entry => selects entry.2).map (·.1) =
      target.blocks.keys.filter fun id => (target.block? id).any selects := by
  unfold Target.blockList Table.keys
  rw [← List.filterMap_eq_map, ← List.filterMap_eq_filter, List.filterMap_filterMap,
    List.filterMap_filterMap, ← List.filterMap_eq_filter, List.filterMap_map]
  refine List.filterMap_congr fun ⟨id, stored⟩ mem => ?_
  have found := Target.block?_of_mem_entries distinct mem
  cases stored with
  | primitive items => simp [found, BlockEntry.block?, Option.guard]
  | block block =>
      cases selected : selects block with
      | false => simp [found, BlockEntry.block?, Option.guard, selected]
      | true => simp [found, BlockEntry.block?, Option.guard, selected]

theorem Target.mem_definitions {target : Target} {definition : Definition} :
    definition ∈ target.definitions ↔
      (definition.id, definition.block) ∈ target.blockList ∧
        definition.block.opcode = definitionOpcode ∧
        definition.prototype = (definition.block.inputBlock? "custom_block").bind target.block? := by
  simp only [Target.definitions, List.mem_filterMap]
  constructor
  · rintro ⟨⟨id, block⟩, mem, isDefinition⟩
    split at isDefinition
    next opcode =>
      obtain rfl := Option.some.inj isDefinition
      exact ⟨mem, opcode, rfl⟩
    next => simp at isDefinition
  · rintro ⟨mem, opcode, prototype⟩
    exact ⟨_, mem, by simp [opcode, ← prototype]⟩

/-- No definition is a hat. -/
theorem Block.opcode_ne_of_isHat {block : Block} (isHat : block.isHat = true) :
    block.opcode ≠ definitionOpcode := by
  intro opcode
  rw [Block.isHat, opcode] at isHat
  exact absurd isHat (by decide)

section

variable {target : Target} {results : TargetResults} {compiled other : CompiledUnit}

/-- The top block of a unit is a hat or definition. -/
theorem Target.top_isEntry (compiledAll : target.compile? = some results)
    (distinct : target.blocks.keys.Nodup) (mem : compiled ∈ results.units) :
    ∃ entry, target.block? compiled.top = some entry ∧ entry.isEntry = true := by
  rcases target.unit_cases compiledAll mem with ⟨id, hat, isHat, outcome⟩ |
    ⟨definition, isDefinition, outcome⟩
  · obtain ⟨rfl, -⟩ := CompiledUnit.ofLowered?_eq_some outcome
    obtain ⟨inList, isEntry⟩ := List.mem_filter.mp isHat
    exact ⟨hat, Target.block?_of_mem_blockList distinct inList, by simp [Block.isEntry, isEntry]⟩
  · obtain ⟨isTop, -⟩ := CompiledUnit.ofLowered?_eq_some outcome
    obtain ⟨inList, opcode, -⟩ := Target.mem_definitions.mp isDefinition
    rw [isTop]
    exact ⟨_, Target.block?_of_mem_blockList distinct inList, by simp [Block.isEntry, opcode]⟩

/-- What the units of a hat or definition have in common: its outcome. -/
def Target.outcome? (target : Target) (id : String) : Option CompiledUnit := do
  let entry ← target.block? id
  if entry.opcode = definitionOpcode then
    CompiledUnit.ofLowered? id
      (target.lowerDefinition ⟨id, entry, (entry.inputBlock? "custom_block").bind target.block?⟩)
  else CompiledUnit.ofLowered? id (target.lowerHat entry)

theorem Target.outcome?_top (compiledAll : target.compile? = some results)
    (distinct : target.blocks.keys.Nodup) (mem : compiled ∈ results.units) :
    target.outcome? compiled.top = some compiled := by
  rcases target.unit_cases compiledAll mem with ⟨id, hat, isHat, outcome⟩ |
    ⟨⟨id, block, prototype⟩, isDefinition, outcome⟩
  · obtain ⟨isTop, -⟩ := CompiledUnit.ofLowered?_eq_some outcome
    obtain ⟨inList, isEntry⟩ := List.mem_filter.mp isHat
    have found := Target.block?_of_mem_blockList distinct inList
    have opcode := Block.opcode_ne_of_isHat (Bool.and_eq_true_iff.mp isEntry).2
    simp [Target.outcome?, isTop, found, opcode, outcome]
  · obtain ⟨isTop, -⟩ := CompiledUnit.ofLowered?_eq_some outcome
    obtain ⟨inList, opcode, held⟩ := Target.mem_definitions.mp isDefinition
    have found := Target.block?_of_mem_blockList distinct inList
    dsimp only at isTop found opcode held outcome
    simp [Target.outcome?, isTop, found, opcode, ← held, outcome]

/-- No two units have the same top block. -/
theorem Target.eq_of_top_eq (compiledAll : target.compile? = some results)
    (distinct : target.blocks.keys.Nodup) (mem : compiled ∈ results.units)
    (otherMem : other ∈ results.units) (same : other.top = compiled.top) : other = compiled := by
  have first := Target.outcome?_top compiledAll distinct mem
  have second := Target.outcome?_top compiledAll distinct otherMem
  rw [same] at second
  exact Option.some.inj (second.symm.trans first)

/-- There is a unit for each definition, in the order of the definitions. -/
theorem Target.map_top_procedures (compiledAll : target.compile? = some results) :
    results.procedures.map (·.top) = target.definitions.map (·.id) := by
  obtain ⟨hats, -, rest⟩ := Option.bind_eq_some_iff.mp compiledAll
  obtain ⟨procedures, compiledProcedures, isResults⟩ := Option.bind_eq_some_iff.mp rest
  obtain rfl := Option.some.inj isResults
  clear compiledAll rest isResults
  have outcomes := mapM_eq_some.mp compiledProcedures
  clear compiledProcedures
  generalize target.definitions = definitions at outcomes ⊢
  induction outcomes with
  | nil => rfl
  | cons here _ ih =>
      obtain ⟨isTop, -⟩ := CompiledUnit.ofLowered?_eq_some here
      simp [isTop, ih]

/-- There is a unit for each hat, in the order of the hats. -/
theorem Target.map_top_hats (compiledAll : target.compile? = some results)
    (distinct : target.blocks.keys.Nodup) :
    results.hats.values.map (·.top) = target.hats.map (·.1) := by
  obtain ⟨hats, compiledHats, rest⟩ := Option.bind_eq_some_iff.mp compiledAll
  obtain ⟨procedures, -, isResults⟩ := Option.bind_eq_some_iff.mp rest
  obtain rfl := Option.some.inj isResults
  clear compiledAll rest isResults
  have outcomes := mapM_eq_some.mp compiledHats
  clear compiledHats
  have named : hats.map (·.1) = target.hats.map (·.1) ∧ hats.map (·.2.top) = target.hats.map (·.1) := by
    generalize target.hats = list at outcomes ⊢
    induction outcomes with
    | nil => exact ⟨rfl, rfl⟩
    | cons here _ ih =>
        obtain ⟨unit, lowered, isPair⟩ := Option.bind_eq_some_iff.mp here
        obtain rfl := Option.some.inj isPair
        obtain ⟨isTop, -⟩ := CompiledUnit.ofLowered?_eq_some lowered
        simp [isTop, ih]
  have apart : (hats.map (·.1)).Nodup := by
    rw [named.1, Target.hats, Target.map_fst_filter_blockList distinct fun block =>
      block.topLevel && block.isHat]
    exact distinct.filter _
  rw [Table.values_ofList apart, List.map_map]
  exact named.2

/-- The units of the hats have hats for top blocks. -/
theorem Target.top_isHat (compiledAll : target.compile? = some results)
    (distinct : target.blocks.keys.Nodup) (mem : compiled ∈ results.hats.values) :
    ∃ hat, target.block? compiled.top = some hat ∧ hat.isHat = true := by
  obtain ⟨hats, compiledHats, rest⟩ := Option.bind_eq_some_iff.mp compiledAll
  obtain ⟨procedures, -, isResults⟩ := Option.bind_eq_some_iff.mp rest
  obtain rfl := Option.some.inj isResults
  obtain ⟨id, inList⟩ := Table.mem_of_mem_values_ofList mem
  obtain ⟨⟨_, hat⟩, isHat, outcome⟩ := exists_of_mem_right (mapM_eq_some.mp compiledHats) inList
  obtain ⟨unit, lowered, isPair⟩ := Option.bind_eq_some_iff.mp outcome
  obtain ⟨rfl, rfl⟩ := Prod.mk.inj (Option.some.inj isPair)
  obtain ⟨isTop, -⟩ := CompiledUnit.ofLowered?_eq_some lowered
  obtain ⟨inBlocks, isEntry⟩ := List.mem_filter.mp isHat
  rw [isTop]
  exact ⟨hat, Target.block?_of_mem_blockList distinct inBlocks, (Bool.and_eq_true_iff.mp isEntry).2⟩

end

end StepCode
