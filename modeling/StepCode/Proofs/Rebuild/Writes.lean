import Mathlib.Data.List.Basic
import StepCode.Proofs.Tables
import StepCode.Rebuild.Basic

/-!
# What a rebuild writes

A rebuilt table is the result of a list of writes, one unit after the other: the script of a unit that
keeps its blocks, or else the top block, what hangs off its slots, and the marker.
-/

namespace StepCode

/-- The entries of the script of `root`. -/
def scriptEntries (source : Table BlockEntry) (root : String) : List (String × BlockEntry) :=
  (scriptBlocks source root).filterMap fun id => (source.get? id).map fun entry => (id, entry)

/-- The entries of all that hangs off the slots of a block. -/
def inputEntries (source : Table BlockEntry) (block : Block) : List (String × BlockEntry) :=
  (block.inputs.keys.filterMap block.inputBlock?).flatMap (scriptEntries source)

theorem addScript_eq (source output : Table BlockEntry) (root : String) :
    addScript source root output = output.insertAll (scriptEntries source root) := by
  unfold addScript scriptEntries
  generalize scriptBlocks source root = ids
  induction ids generalizing output with
  | nil => rfl
  | cons id ids ih =>
      rw [List.foldl_cons, ih]
      cases stored : source.get? id <;> simp [stored]

theorem addInputs_eq (source output : Table BlockEntry) (block : Block) :
    addInputs source block output = output.insertAll (inputEntries source block) := by
  unfold addInputs inputEntries
  generalize block.inputs.keys.filterMap block.inputBlock? = roots
  induction roots generalizing output with
  | nil => rfl
  | cons root roots ih => rw [List.foldl_cons, ih, addScript_eq, List.flatMap_cons, Table.insertAll_append]

namespace CompiledUnit

variable (settings : Settings) (source : Target)

/-- The marker behind a top block, if anything follows the block. -/
def markerEntries (id : String) (top : Block) (text : String) : List (String × BlockEntry) :=
  match top.next with
  | some next => [(next, .block (.marker id text))]
  | none => []

/-- What is written for a unit. -/
def writes (cursor : Layout.Cursor) (compiled : CompiledUnit) : List (String × BlockEntry) :=
  match compiled.plan settings source with
  | .error _ => scriptEntries source.blocks compiled.top
  | .ok (top, text) =>
      (compiled.top, .block (Layout.place settings.grid cursor top).1) ::
        (inputEntries source.blocks top ++ markerEntries compiled.top top text)

/-- Where the next unit is placed. -/
def cursorAfter (cursor : Layout.Cursor) (compiled : CompiledUnit) : Layout.Cursor :=
  match compiled.plan settings source with
  | .error _ => cursor
  | .ok (top, _) => (Layout.place settings.grid cursor top).2

/-- What is written for several units. -/
def writesAll : Layout.Cursor → List CompiledUnit → List (String × BlockEntry)
  | _, [] => []
  | cursor, compiled :: rest =>
      compiled.writes settings source cursor ++
        writesAll (compiled.cursorAfter settings source cursor) rest

end CompiledUnit

namespace Progress

variable (settings : Settings) (source : Target) {record : String → Progress → Progress}

/-- Noting that a unit got a marker changes nothing but the report. -/
structure OnlyReports (record : String → Progress → Progress) : Prop where
  blocks : ∀ id progress, (record id progress).blocks = progress.blocks
  cursor : ∀ id progress, (record id progress).cursor = progress.cursor

theorem addHat_onlyReports : OnlyReports addHat := ⟨fun _ _ => rfl, fun _ _ => rfl⟩

theorem addProcedure_onlyReports : OnlyReports addProcedure := ⟨fun _ _ => rfl, fun _ _ => rfl⟩

theorem rebuildUnit_eq (only : OnlyReports record) (progress : Progress) (compiled : CompiledUnit) :
    (progress.rebuildUnit settings source record compiled).blocks =
        progress.blocks.insertAll (compiled.writes settings source progress.cursor) ∧
      (progress.rebuildUnit settings source record compiled).cursor =
        compiled.cursorAfter settings source progress.cursor := by
  unfold rebuildUnit CompiledUnit.writes CompiledUnit.cursorAfter
  cases compiled.plan settings source with
  | error reason => simp [keep, addScript_eq]
  | ok planned =>
      obtain ⟨top, text⟩ := planned
      cases behind : top.next with
      | none => simp [plant, behind, addInputs_eq, CompiledUnit.markerEntries]
      | some next =>
          simp [plant, behind, addInputs_eq, CompiledUnit.markerEntries, only.blocks, only.cursor,
            Table.insertAll_append]

/-- All units one after the other: what they write, and where the next one would be placed. -/
theorem foldl_rebuildUnit (only : OnlyReports record) (units : List CompiledUnit)
    (progress : Progress) :
    (units.foldl (rebuildUnit settings source record) progress).blocks =
        progress.blocks.insertAll (CompiledUnit.writesAll settings source progress.cursor units) ∧
      (units.foldl (rebuildUnit settings source record) progress).cursor =
        units.foldl (CompiledUnit.cursorAfter settings source) progress.cursor := by
  induction units generalizing progress with
  | nil => exact ⟨rfl, rfl⟩
  | cons compiled units ih =>
      have step := rebuildUnit_eq settings source only progress compiled
      obtain ⟨blocks, cursor⟩ := ih (progress.rebuildUnit settings source record compiled)
      rw [step.1, step.2] at blocks
      rw [step.2] at cursor
      exact ⟨by rw [List.foldl_cons, blocks, CompiledUnit.writesAll, Table.insertAll_append], cursor⟩

end Progress

theorem CompiledUnit.writesAll_append (settings : Settings) (source : Target)
    (cursor : Layout.Cursor) (units others : List CompiledUnit) :
    writesAll settings source cursor (units ++ others) =
      writesAll settings source cursor units ++
        writesAll settings source (units.foldl (cursorAfter settings source) cursor) others := by
  induction units generalizing cursor with
  | nil => rfl
  | cons compiled units ih => simp [writesAll, ih]

/-- The writes that make up a rebuilt target. -/
def Target.rebuildWrites (settings : Settings) (target : Target) (results : TargetResults) :
    List (String × BlockEntry) :=
  CompiledUnit.writesAll settings target .start results.units

theorem Target.rebuild_blocks (settings : Settings) (target : Target) (results : TargetResults) :
    (target.rebuild settings results).1.blocks =
      Table.empty.insertAll (target.rebuildWrites settings results) := by
  unfold Target.rebuildWrites TargetResults.units
  rw [CompiledUnit.writesAll_append, Table.insertAll_append]
  obtain ⟨hats, cursor⟩ := Progress.foldl_rebuildUnit settings target Progress.addHat_onlyReports
    results.hats.values ⟨.empty, .start, ⟨target.name, [], [], []⟩⟩
  rw [← hats, ← cursor]
  exact (Progress.foldl_rebuildUnit settings target Progress.addProcedure_onlyReports
    results.procedures _).1

theorem Target.nodup_keys_rebuild (settings : Settings) (source : Target) (results : TargetResults) :
    (source.rebuild settings results).1.blocks.keys.Nodup := by
  rw [Target.rebuild_blocks]
  exact Table.nodup_keys_insertAll List.nodup_nil

/-! ## Where what is written comes from -/

theorem mem_scriptEntries {source : Table BlockEntry} {root id : String} {entry : BlockEntry} :
    (id, entry) ∈ scriptEntries source root ↔
      id ∈ scriptBlocks source root ∧ source.get? id = some entry := by
  simp only [scriptEntries, List.mem_filterMap, Option.map_eq_some_iff, Prod.mk.injEq]
  constructor
  · rintro ⟨other, mem, found, stored, rfl, rfl⟩
    exact ⟨mem, stored⟩
  · rintro ⟨mem, stored⟩
    exact ⟨id, mem, entry, stored, rfl, rfl⟩

theorem map_fst_scriptEntries (source : Table BlockEntry) (root : String) :
    (scriptEntries source root).map (·.1) = scriptBlocks source root := by
  have stored : ∀ id ∈ scriptBlocks source root,
      ((source.get? id).map fun entry => (id, entry)).map (·.1) = some id := by
    intro id mem
    obtain ⟨entry, inSource, rfl⟩ := List.mem_map.mp mem
    obtain ⟨value, found⟩ := Table.exists_get?_of_mem_entries (List.mem_filter.mp inSource).1
    simp [found]
  rw [scriptEntries, List.map_filterMap, List.filterMap_congr stored, List.filterMap_some]

theorem mem_inputEntries {source : Table BlockEntry} {block : Block} {id : String}
    {entry : BlockEntry} :
    (id, entry) ∈ inputEntries source block ↔
      ∃ name inner, block.inputBlock? name = some inner ∧ id ∈ scriptBlocks source inner ∧
        source.get? id = some entry := by
  simp only [inputEntries, List.mem_flatMap, List.mem_filterMap, mem_scriptEntries]
  constructor
  · rintro ⟨inner, ⟨name, -, slot⟩, inScript, stored⟩
    exact ⟨name, inner, slot, inScript, stored⟩
  · rintro ⟨name, inner, slot, inScript, stored⟩
    exact ⟨inner, ⟨name, Block.mem_inputs_keys slot, slot⟩, inScript, stored⟩

theorem CompiledUnit.mem_markerEntries {parent id text : String} {top : Block} {entry : BlockEntry} :
    (id, entry) ∈ markerEntries parent top text ↔
      top.next = some id ∧ entry = .block (.marker parent text) := by
  unfold markerEntries
  cases top.next with
  | none => simp
  | some next => simp [eq_comm]

theorem CompiledUnit.exists_of_mem_writesAll {settings : Settings} {source : Target}
    {cursor : Layout.Cursor} {units : List CompiledUnit} {write : String × BlockEntry}
    (mem : write ∈ writesAll settings source cursor units) :
    ∃ compiled ∈ units, ∃ cursor, write ∈ compiled.writes settings source cursor := by
  induction units generalizing cursor with
  | nil => simp [writesAll] at mem
  | cons compiled units ih =>
      rcases List.mem_append.mp mem with here | later
      · exact ⟨compiled, by simp, cursor, here⟩
      · obtain ⟨other, inUnits, cursor, mem⟩ := ih later
        exact ⟨other, by simp [inUnits], cursor, mem⟩

/-- Where a write comes from. -/
inductive Origin (settings : Settings) (source : Target) (compiled : CompiledUnit) (id : String) :
    BlockEntry → Prop
  /-- Part of a script that is kept. -/
  | kept {entry : BlockEntry} {reason : String} (plan : compiled.plan settings source = .error reason)
      (inScript : id ∈ scriptBlocks source.blocks compiled.top)
      (stored : source.blocks.get? id = some entry) : Origin settings source compiled id entry
  /-- Part of what hangs off a slot of the top block. -/
  | held {entry : BlockEntry} {top : Block} {text name inner : String}
      (plan : compiled.plan settings source = .ok (top, text))
      (slot : top.inputBlock? name = some inner) (inScript : id ∈ scriptBlocks source.blocks inner)
      (stored : source.blocks.get? id = some entry) : Origin settings source compiled id entry
  /-- The top block in its new place. -/
  | moved {top : Block} {text : String} {cursor : Layout.Cursor} (same : id = compiled.top)
      (plan : compiled.plan settings source = .ok (top, text)) :
      Origin settings source compiled id (.block (Layout.place settings.grid cursor top).1)
  /-- The marker. -/
  | planted {top : Block} {text : String} (plan : compiled.plan settings source = .ok (top, text))
      (behind : top.next = some id) :
      Origin settings source compiled id (.block (.marker compiled.top text))

theorem CompiledUnit.origin_of_mem_writes {settings : Settings} {source : Target}
    {cursor : Layout.Cursor} {compiled : CompiledUnit} {id : String} {entry : BlockEntry}
    (mem : (id, entry) ∈ compiled.writes settings source cursor) :
    Origin settings source compiled id entry := by
  unfold writes at mem
  cases plan : compiled.plan settings source with
  | error reason =>
      simp only [plan] at mem
      obtain ⟨inScript, stored⟩ := mem_scriptEntries.mp mem
      exact .kept plan inScript stored
  | ok planned =>
      obtain ⟨top, text⟩ := planned
      simp only [plan, List.mem_cons, Prod.mk.injEq, List.mem_append] at mem
      rcases mem with ⟨same, rfl⟩ | inputs | marker
      · exact .moved same plan
      · obtain ⟨name, inner, slot, inScript, stored⟩ := mem_inputEntries.mp inputs
        exact .held plan slot inScript stored
      · obtain ⟨behind, rfl⟩ := mem_markerEntries.mp marker
        exact .planted plan behind

/-- Every entry of a rebuilt target has been written for one of its units. -/
theorem Target.origin_of_rebuild {settings : Settings} {target : Target} {results : TargetResults}
    {id : String} {entry : BlockEntry}
    (found : (target.rebuild settings results).1.blocks.get? id = some entry) :
    ∃ compiled ∈ results.units, Origin settings target compiled id entry := by
  rw [Target.rebuild_blocks] at found
  rcases Table.mem_of_get?_insertAll found with written | empty
  · obtain ⟨compiled, inUnits, cursor, mem⟩ := CompiledUnit.exists_of_mem_writesAll written
    exact ⟨compiled, inUnits, CompiledUnit.origin_of_mem_writes mem⟩
  · simp at empty

end StepCode
