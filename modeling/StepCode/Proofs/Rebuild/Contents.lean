import StepCode.Proofs.Rebuild.Calls
import StepCode.Proofs.Rebuild.Forest

/-!
# What a rebuilt target consists of

Every unit contributes to the rebuilt target: its top block, what hangs off the slots of that block and
a marker if it has step code, and else its whole script.  In a well-formed target these contributions
have nothing in common, so the rebuilt target holds all of them and, placeholders apart, nothing else;
and it is well formed again.
-/

namespace StepCode

/-- The block `block` at another position. -/
def Block.movedTo (block : Block) (position : Option Float × Option Float) : Block :=
  { block with x := position.1, y := position.2 }

theorem Block.links_movedTo (block : Block) (position : Option Float × Option Float) :
    (block.movedTo position).links = block.links := rfl

@[simp] theorem Block.links_placeholder (opcode : String) : (Block.placeholder opcode).links = [] := rfl

@[simp] theorem Block.links_marker (parent text : String) : (Block.marker parent text).links = [] := rfl

/-- A marker is neither a hat nor a definition. -/
theorem Block.marker_not_root (parent text : String) :
    ¬ ((Block.marker parent text).isHat = true ∨ (Block.marker parent text).opcode = definitionOpcode) :=
  show ¬ (hatOpcodes.contains markerOpcode = true ∨ markerOpcode = definitionOpcode) by decide

/-- What a unit contributes to the rebuilt target, with its top block at `position`. -/
inductive CompiledUnit.Contributes (settings : Settings) (source : Target)
    (position : Option Float × Option Float) (compiled : CompiledUnit) :
    (id : String) → BlockEntry → Prop
  /-- The top block of a unit with step code, as it was but for its position. -/
  | top {top : Block} {text : String} (plan : compiled.plan settings source = .ok (top, text)) :
      Contributes settings source position compiled compiled.top (.block (top.movedTo position))
  /-- The scripts in the slots of the top block, as they were. -/
  | held {top : Block} {text name inner id : String} {entry : BlockEntry}
      (plan : compiled.plan settings source = .ok (top, text))
      (slot : top.inputBlock? name = some inner) (inScript : id ∈ scriptBlocks source.blocks inner)
      (stored : source.blocks.get? id = some entry) :
      Contributes settings source position compiled id entry
  /-- The marker, in the place of what followed the top block. -/
  | marker {top : Block} {text next : String}
      (plan : compiled.plan settings source = .ok (top, text)) (behind : top.next = some next) :
      Contributes settings source position compiled next (.block (.marker compiled.top text))
  /-- The script of a unit without step code, as it was. -/
  | kept {reason id : String} {entry : BlockEntry} (plan : compiled.plan settings source = .error reason)
      (inScript : id ∈ scriptBlocks source.blocks compiled.top)
      (stored : source.blocks.get? id = some entry) :
      Contributes settings source position compiled id entry

variable {settings : Settings} {target : Target} {results : TargetResults}
  {compiled other : CompiledUnit} {position : Option Float × Option Float} {id : String}
  {entry stored : BlockEntry}

/-- What is written for a unit is contributed by it. -/
theorem Origin.exists_contributes (origin : Origin settings target compiled id entry) :
    ∃ position, compiled.Contributes settings target position id entry := by
  cases origin with
  | kept plan inScript stored => exact ⟨(none, none), .kept plan inScript stored⟩
  | held plan slot inScript stored => exact ⟨(none, none), .held plan slot inScript stored⟩
  | @moved top _ cursor same plan =>
      obtain ⟨x, y, place⟩ := Layout.exists_place_eq settings.grid cursor top
      rw [same, place]
      exact ⟨(x, y), .top plan⟩
  | planted plan behind => exact ⟨(none, none), .marker plan behind⟩

namespace CompiledUnit.Contributes

/-- What a unit contributes is written for it, whatever has been written before. -/
theorem mem_writes (contributes : compiled.Contributes settings target position id entry)
    (cursor : Layout.Cursor) : id ∈ (compiled.writes settings target cursor).map (·.1) := by
  unfold CompiledUnit.writes
  cases contributes with
  | top plan => simp [plan]
  | @held top text name inner id entry plan slot inScript stored =>
      have inInputs := mem_inputEntries.mpr ⟨name, inner, slot, inScript, stored⟩
      rw [plan]
      exact List.mem_map_of_mem (List.mem_cons_of_mem _ (List.mem_append_left _ inInputs))
  | marker plan behind => simp [plan, markerEntries, behind]
  | kept plan inScript stored =>
      rw [plan]
      exact List.mem_map_of_mem (mem_scriptEntries.mpr ⟨inScript, stored⟩)

/-- The position matters for the top block only. -/
theorem at_position {elsewhere : Option Float × Option Float}
    (contributes : compiled.Contributes settings target position id entry)
    (isPosition : ∀ block, entry = .block block → id = compiled.top → elsewhere = (block.x, block.y)) :
    compiled.Contributes settings target elsewhere id entry := by
  cases contributes with
  | top plan =>
      obtain rfl := isPosition _ rfl rfl
      exact .top plan
  | held plan slot inScript stored => exact .held plan slot inScript stored
  | marker plan behind => exact .marker plan behind
  | kept plan inScript stored => exact .kept plan inScript stored

end CompiledUnit.Contributes

/-! ## Units in a well-formed target -/

namespace Target.WellFormed

variable (wellFormed : target.WellFormed) (compiledAll : target.compile? = some results)
  (mem : compiled ∈ results.units)

include wellFormed in
/-- All that a unit contributes stands for blocks below its top block. -/
theorem below_of_contributes (contributes : compiled.Contributes settings target position id entry) :
    (∃ block, target.block? id = some block) ∧ target.Below id compiled.top := by
  cases contributes with
  | top plan =>
      obtain ⟨_, -, found, -⟩ := CompiledUnit.plan_eq_ok.mp plan
      exact ⟨⟨_, found⟩, .refl⟩
  | @held top text name inner _ _ plan slot inScript stored =>
      obtain ⟨_, -, found, -⟩ := CompiledUnit.plan_eq_ok.mp plan
      obtain ⟨exist, below⟩ := wellFormed.mem_scriptBlocks.mp inScript
      have hangs := wellFormed.hangsOff found (Block.mem_links.mpr (.inr ⟨name, slot⟩))
      exact ⟨exist, below.tail hangs⟩
  | marker plan behind =>
      obtain ⟨_, -, found, -⟩ := CompiledUnit.plan_eq_ok.mp plan
      have hangs := wellFormed.hangsOff found (Block.mem_links.mpr (.inl behind))
      exact ⟨hangs.imp fun _ => And.left, .single hangs⟩
  | kept plan inScript stored => exact wellFormed.mem_scriptBlocks.mp inScript

include wellFormed compiledAll mem in
/-- The top block of a unit hangs off nothing. -/
theorem top_not_hangsOff (parent : String) : ¬ target.HangsOff compiled.top parent := by
  rintro ⟨block, found, isParent⟩
  obtain ⟨top, isTop, isEntry⟩ := Target.top_isEntry compiledAll wellFormed.distinct mem
  obtain rfl := Option.some.inj (found.symm.trans isTop)
  exact absurd ((wellFormed.orphan_of_isEntry isTop isEntry).symm.trans isParent) (by simp)

include wellFormed compiledAll mem in
theorem eq_of_top_below (below : target.Below compiled.top id) : id = compiled.top := by
  rcases below.cases_head with same | ⟨parent, hangs, -⟩
  · exact same.symm
  · exact absurd hangs (wellFormed.top_not_hangsOff compiledAll mem parent)

include wellFormed compiledAll mem in
/-- No unit contributes anything under an id of another unit. -/
theorem unit_eq (otherMem : other ∈ results.units) {elsewhere : Option Float × Option Float}
    (contributes : compiled.Contributes settings target position id entry)
    (others : other.Contributes settings target elsewhere id stored) : other = compiled := by
  obtain ⟨-, below⟩ := wellFormed.below_of_contributes contributes
  obtain ⟨-, otherBelow⟩ := wellFormed.below_of_contributes others
  refine Target.eq_of_top_eq compiledAll wellFormed.distinct mem otherMem ?_
  rcases below.linear otherBelow with up | down
  · exact wellFormed.eq_of_top_below compiledAll mem up
  · exact (wellFormed.eq_of_top_below compiledAll otherMem down).symm

include wellFormed compiledAll mem in
/-- What the slots of a top block hold is neither the block itself nor what follows it. -/
theorem held_apart {top : Block} {text name inner : String}
    (plan : compiled.plan settings target = .ok (top, text)) (slot : top.inputBlock? name = some inner)
    (inScript : id ∈ scriptBlocks target.blocks inner) : id ≠ compiled.top ∧ top.next ≠ some id := by
  obtain ⟨_, -, found, -⟩ := CompiledUnit.plan_eq_ok.mp plan
  obtain ⟨-, below⟩ := wellFormed.mem_scriptBlocks.mp inScript
  have hangs := wellFormed.hangsOff found (Block.mem_links.mpr (.inr ⟨name, slot⟩))
  have notBelow : ¬ target.Below compiled.top inner := by
    intro down
    rw [wellFormed.eq_of_top_below compiledAll mem down] at hangs
    exact wellFormed.top_not_hangsOff compiledAll mem _ hangs
  refine ⟨fun same => notBelow (same ▸ below), fun behind => ?_⟩
  have follows := wellFormed.hangsOff found (Block.mem_links.mpr (.inl behind))
  rcases below.cases_head with rfl | ⟨above, upward, rest⟩
  · exact wellFormed.next_ne_slot found slot behind
  · exact notBelow (upward.unique follows ▸ rest)

include wellFormed compiledAll mem in
theorem next_ne_top {top : Block} {text : String}
    (plan : compiled.plan settings target = .ok (top, text)) : top.next ≠ some compiled.top := by
  intro behind
  obtain ⟨_, -, found, -⟩ := CompiledUnit.plan_eq_ok.mp plan
  exact wellFormed.top_not_hangsOff compiledAll mem _
    (wellFormed.hangsOff found (Block.mem_links.mpr (.inl behind)))

include wellFormed compiledAll mem in
/-- What a unit with step code contributes under an id. -/
theorem contributed_of_plan {top : Block} {text : String}
    (plan : compiled.plan settings target = .ok (top, text))
    (contributes : compiled.Contributes settings target position id entry) :
    some entry = if id = compiled.top then some (.block (top.movedTo position))
      else if top.next = some id then some (.block (.marker compiled.top text))
      else target.blocks.get? id := by
  cases contributes with
  | kept refused => simp [plan] at refused
  | top again =>
      obtain ⟨rfl, rfl⟩ := Prod.mk.inj (Except.ok.inj (plan.symm.trans again))
      rw [if_pos rfl]
  | held again slot inScript stored =>
      obtain ⟨rfl, rfl⟩ := Prod.mk.inj (Except.ok.inj (plan.symm.trans again))
      obtain ⟨notTop, notNext⟩ := wellFormed.held_apart compiledAll mem plan slot inScript
      rw [if_neg notTop, if_neg notNext, stored]
  | marker again behind =>
      obtain ⟨rfl, rfl⟩ := Prod.mk.inj (Except.ok.inj (plan.symm.trans again))
      have notTop : id ≠ compiled.top := by
        rintro rfl
        exact wellFormed.next_ne_top compiledAll mem plan behind
      rw [if_neg notTop, if_pos behind]

include wellFormed compiledAll mem in
/-- A unit contributes one entry under an id. -/
theorem entry_eq (contributes : compiled.Contributes settings target position id entry)
    (again : compiled.Contributes settings target position id stored) : stored = entry := by
  cases plan : compiled.plan settings target with
  | error reason =>
      have asBefore : ∀ {entry}, compiled.Contributes settings target position id entry →
          target.blocks.get? id = some entry := by
        intro entry contributes
        cases contributes <;> simp_all
      exact Option.some.inj ((asBefore again).symm.trans (asBefore contributes))
  | ok planned =>
      have isEntry := wellFormed.contributed_of_plan compiledAll mem plan contributes
      have isStored := wellFormed.contributed_of_plan compiledAll mem plan again
      exact Option.some.inj (isStored.trans isEntry.symm)

include wellFormed in
/-- What a contributed block refers to is contributed by the same unit and hangs off the block. -/
theorem linked_of_contributes {block : Block} {inner : String}
    (contributes : compiled.Contributes settings target position id (.block block))
    (refers : inner ∈ block.links) :
    ∃ child, compiled.Contributes settings target position inner (.block child) ∧
      child.parent = some id := by
  cases contributes with
  | @top top text plan =>
      obtain ⟨_, -, found, -⟩ := CompiledUnit.plan_eq_ok.mp plan
      rcases Block.mem_links.mp refers with behind | ⟨name, slot⟩
      · exact ⟨_, .marker plan behind, rfl⟩
      · obtain ⟨child, exist, isParent⟩ := wellFormed.hangsOff found refers
        have inScript := root_mem_scriptBlocks wellFormed.distinct exist
        exact ⟨child, .held plan slot inScript (Target.block?_eq_some.mp exist), isParent⟩
  | held plan slot inScript stored =>
      obtain ⟨child, exist, isParent⟩ := wellFormed.hangsOff (Target.block?_eq_some.mpr stored) refers
      have below := (wellFormed.mem_scriptBlocks.mp inScript).2.head ⟨child, exist, isParent⟩
      have inner := wellFormed.mem_scriptBlocks.mpr ⟨⟨child, exist⟩, below⟩
      exact ⟨child, .held plan slot inner (Target.block?_eq_some.mp exist), isParent⟩
  | marker => simp at refers
  | kept plan inScript stored =>
      obtain ⟨child, exist, isParent⟩ := wellFormed.hangsOff (Target.block?_eq_some.mpr stored) refers
      have below := (wellFormed.mem_scriptBlocks.mp inScript).2.head ⟨child, exist, isParent⟩
      have inner := wellFormed.mem_scriptBlocks.mpr ⟨⟨child, exist⟩, below⟩
      exact ⟨child, .kept plan inner (Target.block?_eq_some.mp exist), isParent⟩

end Target.WellFormed

/-! ## The rebuilt target -/

/-- The rebuilt target `after` consists of what the units of `before` contribute and of placeholders
under the ids `extras`. -/
structure Target.Consists (settings : Settings) (before : Target) (results : TargetResults)
    (extras : List String) (after : Target) : Prop where
  /-- Placeholders apart, the entries are exactly those that the units contribute. -/
  holds : ∃ position : String → Option Float × Option Float, ∀ id ∉ extras, ∀ entry,
    after.blocks.get? id = some entry ↔ ∃ compiled ∈ results.units,
      compiled.Contributes settings before (position compiled.top) id entry
  /-- No unit contributes anything under an id of another unit. -/
  apart : ∀ first ∈ results.units, ∀ second ∈ results.units, ∀ id position elsewhere entry stored,
    first.Contributes settings before position id entry →
    second.Contributes settings before elsewhere id stored → second = first
  /-- The other entries are placeholders. -/
  placeholder : ∀ id ∈ extras, ∃ opcode, after.blocks.get? id = some (.block (.placeholder opcode))
  /-- No unit contributes anything in the place of a placeholder. -/
  unclaimed : ∀ id ∈ extras, ∀ compiled ∈ results.units, ∀ position entry,
    ¬ compiled.Contributes settings before position id entry

variable {newId : List String → String} {before after : Target} {extras : List String}

/-- A rebuilt target consists of what its units contribute. -/
theorem Target.WellFormed.consists (fresh : ∀ used, newId used ∉ used) (wellFormed : before.WellFormed)
    (compiledAll : before.compile? = some results) {added : List (String × BlockEntry)}
    (isAdded : Placeholders newId (before.rebuild settings results).1.blocks added)
    (isAfter : after = { (before.rebuild settings results).1 with
      blocks := (before.rebuild settings results).1.blocks.insertAll added }) :
    before.Consists settings results (added.map (·.1)) after := by
  have stored_of_contributes : ∀ {compiled position id entry}, compiled ∈ results.units →
      compiled.Contributes settings before position id entry →
      ∃ stored, (before.rebuild settings results).1.blocks.get? id = some stored :=
    fun mem contributes => Target.exists_get?_rebuild mem contributes.mem_writes
  have isNew : ∀ id ∈ added.map (·.1), id ∉ (before.rebuild settings results).1.blocks.keys := by
    intro id mem
    obtain ⟨extra, isExtra, rfl⟩ := List.mem_map.mp mem
    exact isAdded.isNew fresh extra isExtra
  refine ⟨?_, ?_, ?_, ?_⟩
  · let position (id : String) : Option Float × Option Float :=
      ((after.block? id).map fun block => (block.x, block.y)).getD (none, none)
    have sound : ∀ id ∉ added.map (·.1), ∀ entry, after.blocks.get? id = some entry →
        ∃ compiled ∈ results.units,
          compiled.Contributes settings before (position compiled.top) id entry := by
      intro id absent entry found
      rw [isAfter, Table.get?_insertAll_of_notMem absent] at found
      obtain ⟨compiled, mem, origin⟩ := Target.origin_of_rebuild found
      obtain ⟨place, contributes⟩ := origin.exists_contributes
      refine ⟨compiled, mem, contributes.at_position ?_⟩
      rintro block rfl rfl
      have isBlock : after.block? compiled.top = some block := by
        rw [Target.block?_eq_some, isAfter, Table.get?_insertAll_of_notMem absent, found]
      simp [position, isBlock]
    refine ⟨position, fun id absent entry => ⟨sound id absent entry, ?_⟩⟩
    rintro ⟨compiled, mem, contributes⟩
    obtain ⟨stored, found⟩ := stored_of_contributes mem contributes
    have isStored : after.blocks.get? id = some stored := by
      rw [isAfter, Table.get?_insertAll_of_notMem absent, found]
    obtain ⟨other, otherMem, others⟩ := sound id absent stored isStored
    obtain rfl := wellFormed.unit_eq compiledAll mem otherMem contributes others
    rw [isStored, wellFormed.entry_eq compiledAll mem contributes others]
  · intro first firstMem second secondMem id position elsewhere entry stored contributes others
    exact wellFormed.unit_eq compiledAll firstMem secondMem contributes others
  · intro id mem
    obtain ⟨entry, found⟩ := Table.exists_get?_of_mem_keys
      (Table.mem_keys_insertAll.mpr (.inl mem) :
        id ∈ ((before.rebuild settings results).1.blocks.insertAll added).keys)
    rcases Table.mem_of_get?_insertAll found with extra | kept
    · obtain ⟨opcode, isPlaceholder⟩ := isAdded.isPlaceholder _ extra
      exact ⟨opcode, isAfter ▸ found.trans (congrArg some isPlaceholder)⟩
    · exact absurd (Table.mem_keys_of_get? kept) (isNew id mem)
  · intro id extra compiled mem position entry contributes
    obtain ⟨stored, found⟩ := stored_of_contributes mem contributes
    exact isNew id extra (Table.mem_keys_of_get? found)

namespace Target.Consists

variable (consists : before.Consists settings results extras after)

include consists

/-- All that the units contribute is there, with their top blocks at some positions. -/
theorem exists_position : ∃ position : String → Option Float × Option Float,
    (∀ id ∉ extras, ∀ entry, after.blocks.get? id = some entry → ∃ compiled ∈ results.units,
      compiled.Contributes settings before (position compiled.top) id entry) ∧
    ∀ compiled ∈ results.units, ∀ id entry,
      compiled.Contributes settings before (position compiled.top) id entry →
      after.blocks.get? id = some entry := by
  obtain ⟨position, holds⟩ := consists.holds
  refine ⟨position, fun id absent entry => (holds id absent entry).mp, ?_⟩
  intro compiled mem id entry contributes
  have absent : id ∉ extras := fun extra => consists.unclaimed id extra compiled mem _ _ contributes
  exact (holds id absent entry).mpr ⟨compiled, mem, contributes⟩

/-- Every entry is a placeholder or contributed by a unit, all of whose contributions are there. -/
theorem get?_cases (found : after.blocks.get? id = some entry) :
    (∃ opcode, entry = .block (.placeholder opcode)) ∨
      ∃ compiled ∈ results.units, ∃ position,
        compiled.Contributes settings before position id entry ∧
        ∀ inner child, compiled.Contributes settings before position inner child →
          after.blocks.get? inner = some child := by
  by_cases extra : id ∈ extras
  · obtain ⟨opcode, isPlaceholder⟩ := consists.placeholder id extra
    exact .inl ⟨opcode, Option.some.inj (found.symm.trans isPlaceholder)⟩
  · obtain ⟨position, sound, complete⟩ := consists.exists_position
    obtain ⟨compiled, mem, contributes⟩ := sound id extra entry found
    exact .inr ⟨compiled, mem, position compiled.top, contributes, complete compiled mem⟩

/-- A block is a placeholder, a marker that hangs off what the block in its place hung off, or was
there before and may have moved. -/
theorem block_cases (wellFormed : before.WellFormed) {block : Block}
    (found : after.block? id = some block) :
    (∃ opcode, block = .placeholder opcode) ∨
      (∃ parent text, block = .marker parent text ∧ before.HangsOff id parent) ∨
      ∃ old position, before.block? id = some old ∧ block = old.movedTo position := by
  rcases consists.get?_cases (Target.block?_eq_some.mp found) with
    ⟨opcode, isPlaceholder⟩ | ⟨compiled, -, position, contributes, -⟩
  · exact .inl ⟨opcode, BlockEntry.block.inj isPlaceholder⟩
  refine .inr ?_
  cases contributes with
  | top plan =>
      obtain ⟨_, -, isTop, -⟩ := CompiledUnit.plan_eq_ok.mp plan
      exact .inr ⟨_, position, isTop, rfl⟩
  | marker plan behind =>
      obtain ⟨_, -, isTop, -⟩ := CompiledUnit.plan_eq_ok.mp plan
      exact .inl ⟨_, _, rfl, wellFormed.hangsOff isTop (Block.mem_links.mpr (.inl behind))⟩
  | held plan slot inScript stored =>
      exact .inr ⟨block, (block.x, block.y), Target.block?_eq_some.mpr stored, rfl⟩
  | kept plan inScript stored =>
      exact .inr ⟨block, (block.x, block.y), Target.block?_eq_some.mpr stored, rfl⟩

/-- What hangs off a block has hung off it before. -/
theorem hangsOff_before (wellFormed : before.WellFormed) {child parent : String}
    (hangs : after.HangsOff child parent) : before.HangsOff child parent := by
  obtain ⟨block, found, isParent⟩ := hangs
  rcases consists.block_cases wellFormed found with
    ⟨opcode, rfl⟩ | ⟨owner, text, rfl, hung⟩ | ⟨old, position, existed, rfl⟩
  · exact absurd isParent (by simp [Block.placeholder, Block.bare])
  · obtain rfl : owner = parent := Option.some.inj isParent
    exact hung
  · exact ⟨old, existed, isParent⟩

/-- The links of a rebuilt target agree again. -/
theorem wellFormed_after (wellFormed : before.WellFormed) (distinct : after.blocks.keys.Nodup) :
    after.WellFormed := by
  have found_of_mem : ∀ entry ∈ after.blockList, after.block? entry.1 = some entry.2 :=
    fun _ mem => Target.block?_of_mem_blockList distinct mem
  refine .of_linked distinct ?_ ?_ ?_ ?_
  · rintro ⟨id, block⟩ mem inner refers
    rcases consists.get?_cases (Target.block?_eq_some.mp (found_of_mem _ mem)) with
      ⟨opcode, isPlaceholder⟩ | ⟨compiled, -, position, contributes, stores⟩
    · rw [BlockEntry.block.inj isPlaceholder, Block.links_placeholder] at refers
      simp at refers
    · obtain ⟨child, others, isParent⟩ := wellFormed.linked_of_contributes contributes refers
      exact ⟨child, Target.block?_eq_some.mpr (stores inner _ others), isParent⟩
  · intro entry mem
    rcases consists.block_cases wellFormed (found_of_mem entry mem) with
      ⟨opcode, same⟩ | ⟨parent, text, same, -⟩ | ⟨old, position, existed, same⟩
    · simp [same]
    · simp [same]
    · rw [same, Block.links_movedTo]
      exact wellFormed.nodup_links existed
  · refine Subrelation.wf ?_ wellFormed.ends
    intro parent child hangs
    exact consists.hangsOff_before wellFormed hangs
  · intro entry mem isRoot
    rcases consists.block_cases wellFormed (found_of_mem entry mem) with
      ⟨opcode, same⟩ | ⟨parent, text, same, -⟩ | ⟨old, position, existed, same⟩
    · simp [same, Block.placeholder, Block.bare]
    · rw [same] at isRoot
      exact absurd isRoot (Block.marker_not_root parent text)
    · rw [same] at isRoot ⊢
      have orphan : old.parent = none := wellFormed.orphan existed isRoot
      exact orphan

end Target.Consists

/-- Rebuilding a program with well-formed targets ends, and each target consists of what its units
contribute: the top block, what its slots hold and a marker for a unit with step code, and its script
for any other.  Only the first target gets placeholders besides.  Units have nothing in common, and the
targets are well formed again. -/
theorem rebuilt_targets_hold_what_units_contribute {newId : List String → String}
    (fresh : ∀ used, newId used ∉ used) (settings : Settings) (source : Project)
    (wellFormed : ∀ target ∈ source.targets, target.WellFormed) :
    ∃ rebuilt report, source.precompile? newId settings = some (rebuilt, report) ∧
      rebuilt.targets.length = source.targets.length ∧
      ∀ (index : Nat) (before : Target), source.targets[index]? = some before →
        ∃ after results extras, rebuilt.targets[index]? = some after ∧
          before.compile? = some results ∧ (index ≠ 0 → extras = []) ∧
          before.Consists settings results extras after ∧ after.WellFormed ∧
          ((∀ x ∈ before.literalNumbers, x.isFinite = true) → ∀ compiled ∈ results.units,
            (compiled.succeeded = true ↔ ∃ top text, compiled.plan settings before = .ok (top, text))) := by
  obtain ⟨⟨rebuilt, report⟩, done⟩ :=
    Project.exists_precompiled newId settings fun target mem => (wellFormed target mem).exists_results
  obtain ⟨targets, isRebuilt, pairs⟩ := Project.exists_plain_targets done
  refine ⟨rebuilt, report, done, ?_, ?_⟩
  · rw [isRebuilt, length_keepExtensions, pairs.length_eq]
  intro index before isBefore
  obtain ⟨plain, isPlain, results, compiledAll, rfl⟩ := exists_of_getElem?_right pairs.flip isBefore
  obtain ⟨after, added, isTarget, isAdded, isAfter, onlyFirst⟩ :=
    exists_getElem?_keepExtensions newId source isPlain
  have beforeWellFormed := wellFormed before (List.mem_of_getElem? isBefore)
  have consists := beforeWellFormed.consists fresh compiledAll isAdded isAfter
  have isTargetRebuilt : Target.Rebuilt newId settings before results after :=
    ⟨compiledAll, added, isAdded, isAfter⟩
  refine ⟨after, results, added.map (·.1), isRebuilt ▸ isTarget, compiledAll, ?_, consists,
    consists.wellFormed_after beforeWellFormed isTargetRebuilt.nodup_keys, ?_⟩
  · intro notFirst
    rw [onlyFirst notFirst, List.map_nil]
  · intro numbers compiled mem
    obtain ⟨top, found, -⟩ := Target.top_isEntry compiledAll beforeWellFormed.distinct mem
    rcases CompiledUnit.plan_cases compiledAll numbers mem found with
      ⟨succeeded, text, plan⟩ | ⟨failed, reason, plan⟩
    · exact ⟨fun _ => ⟨top, text, plan⟩, fun _ => succeeded⟩
    · simp [failed, plan]

theorem refusedProcedure_wellFormed : refusedProcedure.WellFormed := by
  let rank (id : String) : Nat := if id = "h" ∨ id = "d" then 0 else 1
  have falls : ∀ entry ∈ refusedProcedure.blockList, ∀ parent ∈ entry.2.parent,
      rank parent < rank entry.1 := by decide
  have parents : ∀ entry ∈ refusedProcedure.blockList, ∀ inner ∈ entry.2.links,
      (refusedProcedure.block? inner).map Block.parent = some (some entry.1) := by decide
  refine .of_linked (by decide) ?_ (by decide) (Target.ends_of_rank rank falls)
    (by decide)
  intro entry mem inner refers
  obtain ⟨child, found, isParent⟩ := Option.map_eq_some_iff.mp (parents entry mem inner refers)
  exact ⟨child, found, isParent⟩

/-- The script of the flag gets a marker, and the refused procedure keeps its statement. -/
theorem refusedProcedure_rebuilt :
    refusedProcedure.WellFormed ∧ ∃ rebuilt report after,
      refusedProcedure.program.precompile? (freshId 0) .default = some (rebuilt, report) ∧
      rebuilt.targets = [after] ∧ after.WellFormed ∧
      after.block? "c" = some (.marker "h" "(script()(call\"Zp\"))") ∧
      after.block? "b" = some (refusedBlock "d") := by
  have wellFormed := refusedProcedure_wellFormed
  have all : ∀ target ∈ refusedProcedure.program.targets, target.WellFormed := by
    simpa [Target.program] using wellFormed
  obtain ⟨rebuilt, report, done, length, contents⟩ :=
    rebuilt_targets_hold_what_units_contribute (freshId_not_mem 0) .default refusedProcedure.program all
  obtain ⟨after, results, extras, isAfter, compiledAll, -, consists, afterWellFormed, -⟩ :=
    contents 0 refusedProcedure rfl
  obtain ⟨only, isOnly⟩ := List.length_eq_one_iff.mp length
  obtain rfl : only = after := by simpa [isOnly] using isAfter
  have plans : refusedProcedure.compile?.map (fun results => results.units.map fun compiled =>
      (compiled.top, (compiled.plan .default refusedProcedure).toOption.map fun planned =>
        (planned.1.next, planned.2))) =
      some [("h", some (some "c", "(script()(call\"Zp\"))")), ("d", none)] := by decide +kernel
  rw [compiledAll, Option.map_some] at plans
  have units := Option.some.inj plans
  obtain ⟨position, -, complete⟩ := consists.exists_position
  refine ⟨wellFormed, rebuilt, report, only, done, isOnly, afterWellFormed, ?_, ?_⟩
  · obtain ⟨hat, mem, isPlan⟩ := List.mem_map.mp (units.symm ▸ List.mem_cons_self)
    obtain ⟨isTop, planned⟩ := Prod.mk.inj isPlan
    obtain ⟨⟨top, text⟩, plan, isPair⟩ := Option.map_eq_some_iff.mp planned
    obtain ⟨behind, rfl⟩ := Prod.mk.inj isPair
    have marked := complete hat mem _ _ (.marker (toOption_eq_some.mp plan) behind)
    exact Target.block?_eq_some.mpr (isTop ▸ marked)
  · obtain ⟨procedure, mem, isPlan⟩ :=
      List.mem_map.mp (units.symm ▸ List.mem_cons_of_mem _ List.mem_cons_self)
    obtain ⟨isTop, refused⟩ := Prod.mk.inj isPlan
    have inScript : "b" ∈ scriptBlocks refusedProcedure.blocks "d" := by decide
    cases plan : procedure.plan .default refusedProcedure with
    | ok planned => simp [plan, Except.toOption] at refused
    | error reason =>
        have kept := complete procedure mem "b" (.block (refusedBlock "d"))
          (.kept plan (isTop ▸ inScript) rfl)
        exact Target.block?_eq_some.mpr kept

end StepCode
