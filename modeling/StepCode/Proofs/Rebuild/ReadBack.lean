import StepCode.Proofs.Json.ReadBack
import StepCode.Proofs.Project.Records
import StepCode.Proofs.Rebuild.Definitions

/-!
# Rebuilt descriptors read back

A rebuild copies entries of the program, moves blocks and adds markers and placeholders.  All of these
are orderly, so a rebuilt descriptor reads back as the original does.  The only numbers it adds are
coordinates on the layout grid.
-/

namespace StepCode

variable {newId : List String → String} {settings : Settings} {source : Target}
  {results : TargetResults} {compiled : CompiledUnit} {id : String} {entry : BlockEntry}

theorem Block.marker_orderly (parent text : String) : (Block.marker parent text).Orderly where
  inputs := .insert .empty rfl
  fields := .empty
  mutation := by rintro _ ⟨⟩
  extra := .empty

theorem Block.placeholder_orderly (opcode : String) : (Block.placeholder opcode).Orderly where
  inputs := .empty
  fields := .empty
  mutation := by rintro _ ⟨⟩
  extra := .empty

/-- What is written for a unit is orderly if the target is. -/
theorem Origin.orderly (origin : Origin settings source compiled id entry) (orderly : source.Orderly) :
    entry.Orderly := by
  have stored : ∀ {id entry}, source.blocks.get? id = some entry → entry.Orderly :=
    fun found => orderly.blocks.values _ (Table.mem_entries_of_get? found)
  cases origin with
  | kept _ _ found => exact stored found
  | held _ _ _ found => exact stored found
  | moved _ plan =>
      obtain ⟨_, -, found, -⟩ := CompiledUnit.plan_eq_ok.mp plan
      have before : Block.Orderly _ := stored (Target.block?_eq_some.mp found)
      obtain ⟨x, y, place⟩ := Layout.exists_place_eq settings.grid _ _
      rw [place]
      exact ⟨before.inputs, before.fields, before.mutation, before.extra⟩
  | planted => exact Block.marker_orderly _ _

/-- Every entry of a rebuilt table has been written for a unit. -/
theorem Target.origin_of_mem_entries
    (mem : (id, entry) ∈ (source.rebuild settings results).1.blocks.entries) :
    ∃ compiled ∈ results.units, Origin settings source compiled id entry :=
  Target.origin_of_rebuild
    (Table.get?_of_mem_entries (Target.nodup_keys_rebuild settings source results) mem)

theorem Target.Orderly.rebuild (orderly : source.Orderly) (settings : Settings)
    (results : TargetResults) : (source.rebuild settings results).1.Orderly where
  vars := orderly.vars
  blocks := by
    refine ⟨Target.nodup_keys_rebuild settings source results, fun entry mem => ?_⟩
    obtain ⟨compiled, -, origin⟩ := Target.origin_of_mem_entries mem
    exact origin.orderly orderly
  comments := orderly.comments.filter fun _ comment =>
    source.isStage && Text.endsWith comment.text settings.commentSuffix
  extra := orderly.extra

section

variable {project rebuilt : Project} {report : RebuildReport} {helpers : Table String}
  {allResults : List TargetResults}

/-- Every target of a rebuilt program is a rebuilt target with placeholders. -/
theorem Project.exists_target_of_rebuild
    (done : project.rebuild newId settings helpers allResults = .ok (rebuilt, report)) {after : Target}
    (mem : after ∈ rebuilt.targets) :
    ∃ before ∈ project.targets, ∃ results extras,
      Placeholders newId (before.rebuild settings results).1.blocks extras ∧
      after = { (before.rebuild settings results).1 with
        blocks := (before.rebuild settings results).1.blocks.insertAll extras } := by
  obtain ⟨rfl, -⟩ := Prod.mk.inj (Project.assemble_of_rebuild done).2
  obtain ⟨index, isAfter⟩ := List.mem_iff_getElem?.mp mem
  obtain ⟨plain, extras, isPlain, added, isTarget⟩ := getElem?_keepExtensions isAfter
  obtain ⟨outcome, inOutcomes, rfl⟩ := List.mem_map.mp (List.mem_of_getElem? isPlain)
  obtain ⟨⟨before, results⟩, inZip, rfl⟩ := List.mem_map.mp inOutcomes
  exact ⟨before, (List.of_mem_zip inZip).1, results, extras, added, isTarget⟩

/-- A orderly program is rebuilt to a orderly one, whatever the results of the compiler are. -/
theorem Project.Orderly.rebuild (orderly : project.Orderly)
    (done : project.rebuild newId settings helpers allResults = .ok (rebuilt, report)) :
    rebuilt.Orderly where
  targets after mem := by
    obtain ⟨before, inProject, results, extras, added, rfl⟩ := Project.exists_target_of_rebuild done mem
    have plain := (orderly.targets before inProject).rebuild settings results
    have allOrderly : ∀ extra ∈ extras, extra.2.Orderly := by
      intro extra inExtras
      obtain ⟨opcode, isPlaceholder⟩ := added.isPlaceholder extra inExtras
      rw [isPlaceholder]
      exact Block.placeholder_orderly opcode
    exact ⟨plain.vars, plain.blocks.insertAll allOrderly, plain.comments, plain.extra⟩
  extensionUrls := by
    obtain ⟨rfl, -⟩ := Prod.mk.inj (Project.assemble_of_rebuild done).2
    exact Table.nodup_keys_insert orderly.extensionUrls
  extra := by
    obtain ⟨rfl, -⟩ := Prod.mk.inj (Project.assemble_of_rebuild done).2
    exact orderly.extra

end

/-! ## Numbers -/

theorem Json.mem_floats_ofTable {α : Type} {write : α → Json} {table : Table α} {x : Float} :
    x ∈ (Json.ofTable write table).floats ↔ ∃ entry ∈ table.entries, x ∈ (write entry.2).floats := by
  simp [Json.ofTable, Json.mem_floats_object]

theorem Json.floats_ofTexts (texts : List String) : (Json.ofTexts texts).floats = [] := by
  refine List.eq_nil_iff_forall_not_mem.mpr fun x mem => ?_
  obtain ⟨item, isText, inText⟩ := Json.mem_floats_array.mp mem
  obtain ⟨text, -, rfl⟩ := List.mem_map.mp isText
  exact List.not_mem_nil inText

theorem Project.mem_floats {project : Project} {x : Float} :
    x ∈ project.toJson.floats ↔ (∃ target ∈ project.targets, x ∈ target.toJson.floats) ∨
      ∃ entry ∈ project.extra.entries, x ∈ entry.2.floats := by
  have noUrls : ¬ ∃ member ∈ (if project.extensionUrls.isEmpty then []
      else [("extensionURLs", Json.ofTable .text project.extensionUrls)]), x ∈ member.2.floats := by
    split <;> simp [Json.mem_floats_ofTable, Json.floats]
  rw [Project.toJson, Json.mem_floats_object]
  simp only [List.mem_append, or_and_right, exists_or, noUrls, or_false]
  simp [Json.mem_floats_array, Json.floats_ofTexts]

theorem Target.mem_floats {target : Target} {x : Float} :
    x ∈ target.toJson.floats ↔ (∃ entry ∈ target.vars.entries, x ∈ entry.2.floats) ∨
      (∃ entry ∈ target.blocks.entries, x ∈ entry.2.toJson.floats) ∨
      (∃ entry ∈ target.comments.entries, x ∈ entry.2.toJson.floats) ∨
      ∃ entry ∈ target.extra.entries, x ∈ entry.2.floats := by
  rw [Target.toJson, Json.mem_floats_object]
  simp only [List.mem_append, or_and_right, exists_or]
  simp [Json.mem_floats_ofTable, Json.floats, or_assoc]

/-- A block that is moved has no numbers but those it had and its position. -/
theorem Block.mem_floats_moved {block : Block} {a b x : Float}
    (mem : x ∈ ({ block with x := some a, y := some b } : Block).toJson.floats) :
    x ∈ block.toJson.floats ∨ x = a ∨ x = b := by
  rw [Block.toJson, Json.mem_floats_object] at mem ⊢
  simp only [List.mem_append, or_and_right, exists_or] at mem ⊢
  rcases mem with (((always | isX) | isY) | mutation) | extra
  · exact .inl (.inl (.inl (.inl (.inl always))))
  · exact .inr (.inl (by simpa [Json.optional, Json.floats] using isX))
  · exact .inr (.inr (by simpa [Json.optional, Json.floats] using isY))
  · exact .inl (.inl (.inr mutation))
  · exact .inl (.inr extra)

/-- What is written for a unit has no numbers but those in the target and coordinates on the grid. -/
theorem Origin.mem_floats (origin : Origin settings source compiled id entry) {x : Float}
    (mem : x ∈ entry.toJson.floats) :
    (∃ entry ∈ source.blocks.entries, x ∈ entry.2.toJson.floats) ∨
      ∃ slot : Layout.Slot, x = slot.x settings.grid ∨ x = slot.y settings.grid := by
  cases origin with
  | kept _ _ found => exact .inl ⟨_, Table.mem_entries_of_get? found, mem⟩
  | held _ _ _ found => exact .inl ⟨_, Table.mem_entries_of_get? found, mem⟩
  | @moved top _ cursor _ plan =>
      obtain ⟨_, -, found, -⟩ := CompiledUnit.plan_eq_ok.mp plan
      have stored := Table.mem_entries_of_get? (Target.block?_eq_some.mp found)
      unfold Layout.place at mem
      split at mem
      · exact .inl ⟨_, stored, mem⟩
      · rcases Block.mem_floats_moved mem with before | placed
        · exact .inl ⟨_, stored, before⟩
        · exact .inr ⟨cursor.slot settings.grid, placed⟩
  | @planted top text plan behind =>
      have nothing : (BlockEntry.block (.marker compiled.top text)).toJson.floats = [] := rfl
      simp [nothing] at mem

/-- A rebuild adds no numbers but coordinates on the grid. -/
theorem Project.mem_floats_of_rebuild {project rebuilt : Project} {report : RebuildReport}
    {helpers : Table String} {allResults : List TargetResults}
    (done : project.rebuild newId settings helpers allResults = .ok (rebuilt, report)) {x : Float}
    (mem : x ∈ rebuilt.toJson.floats) :
    x ∈ project.toJson.floats ∨
      ∃ slot : Layout.Slot, x = slot.x settings.grid ∨ x = slot.y settings.grid := by
  rcases Project.mem_floats.mp mem with ⟨after, isTarget, inTarget⟩ | inExtra
  · obtain ⟨before, inProject, results, extras, added, rfl⟩ :=
      Project.exists_target_of_rebuild done isTarget
    have ofTarget (inBefore : x ∈ before.toJson.floats) : x ∈ project.toJson.floats :=
      Project.mem_floats.mpr (.inl ⟨before, inProject, inBefore⟩)
    rcases Target.mem_floats.mp inTarget with inVars | inBlocks | inComments | inRest
    · exact .inl (ofTarget (Target.mem_floats.mpr (.inl inVars)))
    · obtain ⟨⟨id, entry⟩, stored, inEntry⟩ := inBlocks
      rcases Table.mem_entries_insertAll stored with extra | plain
      · obtain ⟨opcode, rfl⟩ := added.isPlaceholder _ extra
        have nothing : (BlockEntry.block (.placeholder opcode)).toJson.floats = [] := rfl
        simp [nothing] at inEntry
      · obtain ⟨compiled, -, origin⟩ := Target.origin_of_mem_entries plain
        refine (origin.mem_floats inEntry).imp_left fun inBlocks => ?_
        exact ofTarget (Target.mem_floats.mpr (.inr (.inl inBlocks)))
    · obtain ⟨comment, kept, inComment⟩ := inComments
      have before := (List.mem_filter.mp kept).1
      exact .inl (ofTarget (Target.mem_floats.mpr (.inr (.inr (.inl ⟨comment, before, inComment⟩)))))
    · exact .inl (ofTarget (Target.mem_floats.mpr (.inr (.inr (.inr inRest)))))
  · obtain ⟨rfl, -⟩ := Prod.mk.inj (Project.assemble_of_rebuild done).2
    exact .inl (Project.mem_floats.mpr (.inr inExtra))

/-! ## Descriptors -/

/-- What is written for a descriptor is read as that descriptor if the text of its tree gives back the
tree. -/
theorem Project.Orderly.read_write {project : Project} (orderly : project.Orderly)
    (layer : Json.read project.toJson.compact = .ok project.toJson) :
    Project.read project.write = .ok project := by
  unfold Project.read Project.write
  rw [layer]
  dsimp only
  rw [Project.ofJson_toJson orderly]
  rfl

/-- A descriptor that has been read from a text reads back from what is written for it, and so does
every descriptor that it is rebuilt to, with all tables in their order.  What is taken for granted is
that the compact texts of these two trees give back the trees, as the texts of legible trees do
(`Json.read_compact`).  No tree with a number that is not finite has such a text; the numbers of the
rebuilt one are those of the original and coordinates on the layout grid. -/
theorem descriptors_read_back {text : String} {project : Project}
    (isRead : Project.read text = .ok project) :
    Project.ofJson project.toJson = .ok project ∧
    (Json.read project.toJson.compact = .ok project.toJson →
      Project.read project.write = .ok project) ∧
    ∀ (newId : List String → String) (settings : Settings) (helpers : Table String)
      (results : List TargetResults) (rebuilt : Project) (report : RebuildReport),
      project.rebuild newId settings helpers results = .ok (rebuilt, report) →
      Project.ofJson rebuilt.toJson = .ok rebuilt ∧
      (Json.read rebuilt.toJson.compact = .ok rebuilt.toJson →
        Project.read rebuilt.write = .ok rebuilt) ∧
      ∀ x ∈ rebuilt.toJson.floats, x ∈ project.toJson.floats ∨
        ∃ slot : Layout.Slot, x = slot.x settings.grid ∨ x = slot.y settings.grid := by
  have orderly : project.Orderly := by
    unfold Project.read at isRead
    split at isRead
    next tree _ =>
      cases shaped : Project.ofJson tree with
      | error error => simp [shaped, Except.mapError] at isRead
      | ok other =>
          rw [shaped] at isRead
          exact Except.ok.inj isRead ▸ Project.orderly_of_ofJson shaped
    next => split at isRead <;> simp at isRead
  refine ⟨Project.ofJson_toJson orderly, orderly.read_write, ?_⟩
  intro newId settings helpers results rebuilt report done
  have rebuiltOrderly := orderly.rebuild done
  exact ⟨Project.ofJson_toJson rebuiltOrderly, rebuiltOrderly.read_write,
    fun x mem => Project.mem_floats_of_rebuild done mem⟩

/-- A stage with a block, a loose reporter and members that nothing reads. -/
def stageText : String :=
  "\x7b\"targets\":[\x7b\"name\":\"Stage\",\"isStage\":true,\"blocks\":\x7b" ++
    "\"h\":\x7b\"opcode\":\"event_whenflagclicked\",\"topLevel\":true,\"x\":10\x7d," ++
    "\"r\":[12,\"v\",\"id\"]\x7d,\"volume\":50\x7d],\"meta\":\x7b\"semver\":\"3.0.0\"\x7d\x7d"

/-- It is read, and what is written for it with and without a rebuild that finds nothing to do is read
back. -/
theorem stageText_reads_back : ∃ project rebuilt report,
    Project.read stageText = .ok project ∧ project.targets.length = 1 ∧
    project.rebuild (fun _ => "p") .default compilerHelpers [⟨.empty, []⟩] = .ok (rebuilt, report) ∧
    Project.ofJson project.toJson = .ok project ∧ Project.ofJson rebuilt.toJson = .ok rebuilt ∧
    Project.read project.write = .ok project ∧ Project.read rebuilt.write = .ok rebuilt := by
  let assembled (project : Project) := project.assemble (fun _ => "p") .default compilerHelpers
    (project.targets.zip [⟨.empty, []⟩])
  have reads : (Project.read stageText).toOption.map (fun project =>
      (project.targets.length, project.toJson.isLegible Json.depthLimit,
        (assembled project).1.toJson.isLegible Json.depthLimit)) = some (1, true, true) := by
    decide +kernel
  obtain ⟨project, isSome, checked⟩ := Option.map_eq_some_iff.mp reads
  obtain ⟨single, legible, stillLegible⟩ : project.targets.length = 1 ∧
      project.toJson.isLegible Json.depthLimit = true ∧
      (assembled project).1.toJson.isLegible Json.depthLimit = true := by
    simpa using checked
  have isRead := toOption_eq_some.mp isSome
  have done : project.rebuild (fun _ => "p") .default compilerHelpers [⟨.empty, []⟩] =
      .ok (assembled project) := if_pos single.symm
  obtain ⟨readsBack, written, rebuilds⟩ := descriptors_read_back isRead
  obtain ⟨rebuiltReadsBack, rebuiltWritten, -⟩ := rebuilds _ _ _ _ _ _ done
  exact ⟨project, _, _, isRead, single, done, readsBack, rebuiltReadsBack,
    written (Json.read_compact legible), rebuiltWritten (Json.read_compact stillLegible)⟩

end StepCode
