import StepCode.Proofs.Bootstrap
import StepCode.Proofs.Rebuild.Extensions
import StepCode.Proofs.Routine.Linking

/-!
# Planted step code can be loaded

What the compiler hands over for a unit is the text of a script.  The marker of the unit carries this
text, size-reduced or not, and a host that loads the rebuilt program reads the same script from it.
-/

namespace StepCode

open Lowering

/-- `script` is the step code of the hat or definition `top`. -/
inductive Target.Lowers (target : Target) : (top : String) → (script : Script) → Prop
  | hat {id : String} {hat : Block} {body : List Stmt} (mem : (id, hat) ∈ target.hats)
      (lowered : chain ⟨target, [], false⟩ hat.next = .ok body) : Lowers target id ⟨[], body⟩
  | definition {definition : Definition} {mutation : Mutation} {body : List Stmt}
      (mem : definition ∈ target.definitions)
      (prototype : definition.prototype.bind Block.mutation = some mutation)
      (lowered : chain ⟨target, mutation.names, mutation.isWarp⟩ definition.block.next = .ok body) :
      Lowers target definition.id ⟨mutation.names, body⟩

theorem CompiledUnit.ofLowered?_eq_some {top : String} {body : Lowered CompiledBody}
    {compiled : CompiledUnit} (outcome : ofLowered? top body = some compiled) :
    compiled.top = top ∧ ∀ code, compiled.result = .ok code → body = .ok code := by
  unfold ofLowered? at outcome
  split at outcome
  · obtain rfl := Option.some.inj outcome
    exact ⟨rfl, fun code ok => by simpa using ok⟩
  · obtain rfl := Option.some.inj outcome
    exact ⟨rfl, fun code ok => by simp at ok⟩
  · simp at outcome

/-- The outcomes of a compiled target are those of its hats and definitions. -/
theorem Target.unit_cases {target : Target} {results : TargetResults}
    (compiledAll : target.compile? = some results) {compiled : CompiledUnit}
    (mem : compiled ∈ results.units) :
    (∃ id hat, (id, hat) ∈ target.hats ∧
        CompiledUnit.ofLowered? id (target.lowerHat hat) = some compiled) ∨
      ∃ definition ∈ target.definitions,
        CompiledUnit.ofLowered? definition.id (target.lowerDefinition definition) = some compiled := by
  obtain ⟨hats, compiledHats, rest⟩ := Option.bind_eq_some_iff.mp compiledAll
  obtain ⟨procedures, compiledProcedures, isResults⟩ := Option.bind_eq_some_iff.mp rest
  obtain rfl := Option.some.inj isResults
  rcases List.mem_append.mp mem with inHats | inProcedures
  · obtain ⟨id, inList⟩ := Table.mem_of_mem_values_ofList inHats
    obtain ⟨⟨_, hat⟩, isHat, outcome⟩ := exists_of_mem_right (mapM_eq_some.mp compiledHats) inList
    obtain ⟨unit, lowered, isPair⟩ := Option.bind_eq_some_iff.mp outcome
    obtain ⟨rfl, rfl⟩ := Prod.mk.inj (Option.some.inj isPair)
    exact .inl ⟨_, hat, isHat, lowered⟩
  · obtain ⟨definition, isDefinition, outcome⟩ :=
      exists_of_mem_right (mapM_eq_some.mp compiledProcedures) inProcedures
    exact .inr ⟨definition, isDefinition, outcome⟩

/-- Every unit of a compiled target that succeeded carries a script. -/
theorem Target.exists_carries {target : Target} {results : TargetResults}
    (compiledAll : target.compile? = some results) {compiled : CompiledUnit}
    (mem : compiled ∈ results.units) {body : CompiledBody} (ok : compiled.result = .ok body) :
    ∃ script, target.Lowers compiled.top script ∧ body.text = script.print := by
  rcases target.unit_cases compiledAll mem with ⟨id, hat, isHat, outcome⟩ |
    ⟨definition, isDefinition, outcome⟩
  · obtain ⟨rfl, succeeded⟩ := CompiledUnit.ofLowered?_eq_some outcome
    obtain ⟨stmts, lowered, isBody⟩ := bind_eq_ok.mp (succeeded body ok)
    obtain rfl := Except.ok.inj isBody
    exact ⟨⟨[], stmts⟩, .hat isHat lowered, rfl⟩
  · obtain ⟨isTop, succeeded⟩ := CompiledUnit.ofLowered?_eq_some outcome
    have lowered := succeeded body ok
    unfold Target.lowerDefinition at lowered
    split at lowered
    · simp [refuse] at lowered
    next mutation prototype =>
      obtain ⟨stmts, chained, isBody⟩ := bind_eq_ok.mp lowered
      obtain rfl := Except.ok.inj isBody
      exact ⟨⟨mutation.names, stmts⟩, isTop ▸ .definition isDefinition prototype chained, rfl⟩

theorem Target.Lowers.sound {target : Target} {top : String} {script : Script}
    (lowers : target.Lowers top script)
    (numbers : ∀ x ∈ target.literalNumbers, x.isFinite = true) : BodySound script.body := by
  cases lowers with
  | hat mem lowered => exact chain_sound (by exact numbers) lowered
  | definition mem prototype lowered => exact chain_sound (by exact numbers) lowered

/-- The text of a marker spells the script that the compiler produced. -/
theorem spells_markerText (settings : Settings) {script : Script}
    (wellFormed : StmtsWellFormed script.body) {body : CompiledBody}
    (carried : body.text = script.print) :
    ∃ text bare, markerText settings body = .ok text ∧ Spells bare text.toList script.tree.lexemes := by
  unfold markerText
  cases settings.minify with
  | false => exact ⟨script.print, false, by simp [carried], Script.spells_print wellFormed⟩
  | true =>
      obtain ⟨text, minified, spells⟩ := Script.spells_minify wellFormed
      exact ⟨text, true, by simp [carried, minified, Except.mapError], spells⟩

/-- It is parsed as this script. -/
theorem parse_markerText (settings : Settings) {script : Script} (sound : BodySound script.body)
    {body : CompiledBody} (carried : body.text = script.print) :
    ∃ text, markerText settings body = .ok text ∧ Script.parse text = .ok script := by
  obtain ⟨text, bare, isText, spells⟩ := spells_markerText settings sound.wellFormed carried
  exact ⟨text, isText, Script.parse_of_spells sound.wellFormed spells⟩

/-- The unit gets a marker with `text` behind its top block. -/
def CompiledUnit.Plants (settings : Settings) (source : Target) (compiled : CompiledUnit)
    (text : String) : Prop :=
  ∃ top, compiled.plan settings source = .ok (top, text) ∧ top.next.isSome

/-- A unit is planned for if it succeeded and its top block is there. -/
theorem CompiledUnit.plan_eq_ok {settings : Settings} {source : Target} {compiled : CompiledUnit}
    {top : Block} {text : String} :
    compiled.plan settings source = .ok (top, text) ↔
      ∃ body, compiled.result = .ok body ∧ source.block? compiled.top = some top ∧
        markerText settings body = .ok text := by
  unfold plan
  rw [bind_eq_ok]
  refine exists_congr fun body => and_congr_right fun _ => ?_
  split
  next missing => simp [missing, throw, throwThe, MonadExceptOf.throw]
  next found top' =>
    simp only [top', bind_eq_ok, pure, Except.pure, Except.ok.injEq, Prod.mk.injEq]
    constructor
    · rintro ⟨planted, isText, rfl, rfl⟩
      exact ⟨rfl, isText⟩
    · rintro ⟨isTop, isText⟩
      exact ⟨text, isText, Option.some.inj isTop, rfl⟩

/-- The text is parsed as the step code of the unit `top` and linked against the helpers. -/
def Target.LoadsAs (target : Target) (helpers : Table Helper) (top text : String) : Prop :=
  ∃ script routine, target.Lowers top script ∧ Script.parse text = .ok script ∧
    Routine.load text helpers = .ok routine

/-- What a marker carries is parsed and loaded again. -/
theorem loadsAs_of_plan {settings : Settings} {target : Target} {results : TargetResults}
    (compiledAll : target.compile? = some results)
    (numbers : ∀ x ∈ target.literalNumbers, x.isFinite = true) {compiled : CompiledUnit}
    (mem : compiled ∈ results.units) {top : Block} {text : String}
    (plan : compiled.plan settings target = .ok (top, text)) :
    target.LoadsAs (approvedHelpers Helper.shipped) compiled.top text := by
  obtain ⟨body, ok, -, isMarkerText⟩ := CompiledUnit.plan_eq_ok.mp plan
  obtain ⟨script, lowers, carried⟩ := Target.exists_carries compiledAll mem ok
  have sound := lowers.sound numbers
  obtain ⟨planted, isText, parsed⟩ := parse_markerText settings sound carried
  obtain rfl : planted = text := Except.ok.inj (isText.symm.trans isMarkerText)
  obtain ⟨routine, loaded⟩ := Routine.exists_load sound parsed
  exact ⟨script, routine, lowers, parsed, loaded⟩

/-! ## The rebuilt program -/

/-- What is added to a table for the extensions: placeholders, under new ids if `newId` gives such. -/
structure Placeholders (newId : List String → String) (blocks : Table BlockEntry)
    (extras : List (String × BlockEntry)) : Prop where
  isPlaceholder : ∀ extra ∈ extras, ∃ opcode, extra.2 = .block (.placeholder opcode)
  isNew : (∀ used, newId used ∉ used) → ∀ extra ∈ extras, extra.1 ∉ blocks.keys

/-- Placeholders are all that is added for the extensions. -/
theorem Placeholders.ofPlanted {newId : List String → String} {source : Project}
    {kept : List String} {blocks : Table BlockEntry} {planted : List (String × BlockEntry)}
    (each : List.Forall₂ source.PlantsFor kept planted)
    (unclaimed : (∀ used, newId used ∉ used) → Project.Unclaimed blocks planted) :
    Placeholders newId blocks planted where
  isPlaceholder extra mem := by
    obtain ⟨-, -, opcode, -, isPlaceholder⟩ := exists_of_mem_right each mem
    exact ⟨opcode, isPlaceholder⟩
  isNew fresh := (unclaimed fresh).isNew

@[simp] theorem length_keepExtensions (newId : List String → String) (source : Project)
    (targets : List Target) : (keepExtensions newId source targets).1.length = targets.length := by
  cases targets <;> rfl

/-- Only the first target gets placeholders. -/
theorem exists_getElem?_keepExtensions (newId : List String → String) (source : Project)
    {targets : List Target} {index : Nat} {plain : Target} (isPlain : targets[index]? = some plain) :
    ∃ target extras, (keepExtensions newId source targets).1[index]? = some target ∧
      Placeholders newId plain.blocks extras ∧
      target = { plain with blocks := plain.blocks.insertAll extras } ∧ (index ≠ 0 → extras = []) := by
  cases targets with
  | nil => simp at isPlain
  | cons main rest =>
      cases index with
      | zero =>
          obtain rfl := Option.some.inj isPlain
          obtain ⟨extras, eq, each, unclaimed⟩ := source.exists_planted newId source.extensions main
          exact ⟨_, extras, rfl, .ofPlanted each unclaimed, by rw [eq], by simp⟩
      | succ index => exact ⟨plain, [], isPlain, ⟨by simp, by simp⟩, rfl, fun _ => rfl⟩

theorem getElem?_keepExtensions {newId : List String → String} {source : Project}
    {targets : List Target} {index : Nat} {target : Target}
    (isTarget : (keepExtensions newId source targets).1[index]? = some target) :
    ∃ plain extras, targets[index]? = some plain ∧ Placeholders newId plain.blocks extras ∧
      target = { plain with blocks := plain.blocks.insertAll extras } := by
  obtain ⟨inRange, -⟩ := List.getElem?_eq_some_iff.mp isTarget
  rw [length_keepExtensions] at inRange
  have isPlain := List.getElem?_eq_getElem inRange
  obtain ⟨other, extras, isOther, added, eq, -⟩ := exists_getElem?_keepExtensions newId source isPlain
  obtain rfl := Option.some.inj (isOther.symm.trans isTarget)
  exact ⟨_, extras, isPlain, added, eq⟩

/-- `after` is what a rebuild makes of `before` and its outcomes, up to placeholders. -/
structure Target.Rebuilt (newId : List String → String) (settings : Settings) (before : Target)
    (results : TargetResults) (after : Target) : Prop where
  outcomes : before.compile? = some results
  isAfter : ∃ extras, Placeholders newId (before.rebuild settings results).1.blocks extras ∧
    after = { (before.rebuild settings results).1 with
      blocks := (before.rebuild settings results).1.blocks.insertAll extras }

/-- A program is rebuilt if all of its targets are compiled. -/
theorem Project.exists_precompiled (newId : List String → String) (settings : Settings)
    {source : Project} (compiles : ∀ target ∈ source.targets, ∃ results, target.compile? = some results) :
    ∃ done, source.precompile? newId settings = some done := by
  have outcomes : ¬ (source.targets.mapM fun target => do return (target, ← target.compile?)) = none := by
    rw [mapM_eq_none]
    rintro ⟨target, mem, missing⟩
    obtain ⟨results, compiledAll⟩ := compiles target mem
    simp [compiledAll] at missing
  obtain ⟨results, compiled⟩ := Option.ne_none_iff_exists'.mp outcomes
  exact ⟨_, Option.bind_eq_some_iff.mpr ⟨results, compiled, rfl⟩⟩

/-- The targets of a rebuilt program, before the extensions are looked at. -/
theorem Project.exists_plain_targets {newId : List String → String} {settings : Settings}
    {source rebuilt : Project} {report : RebuildReport}
    (done : source.precompile? newId settings = some (rebuilt, report)) :
    ∃ targets, rebuilt.targets = (keepExtensions newId source targets).1 ∧
      List.Forall₂ (fun before plain => ∃ results, before.compile? = some results ∧
        plain = (before.rebuild settings results).1) source.targets targets := by
  obtain ⟨outcomes, compiled, isRebuilt⟩ := Option.bind_eq_some_iff.mp done
  obtain ⟨rfl, -⟩ := Prod.mk.inj (Option.some.inj isRebuilt)
  refine ⟨_, rfl, ?_⟩
  rw [List.map_map, List.forall₂_map_right_iff]
  refine (mapM_eq_some.mp compiled).imp ?_
  intro before outcome isOutcome
  obtain ⟨results, compiledAll, isPair⟩ := Option.bind_eq_some_iff.mp isOutcome
  obtain rfl := Option.some.inj isPair
  exact ⟨results, compiledAll, rfl⟩

/-- Each target of a rebuilt program is rebuilt from the target in its place. -/
theorem Project.exists_rebuilt_target {newId : List String → String} {settings : Settings}
    {source rebuilt : Project} {report : RebuildReport}
    (done : source.precompile? newId settings = some (rebuilt, report)) {index : Nat} {after : Target}
    (isAfter : rebuilt.targets[index]? = some after) :
    ∃ before results, source.targets[index]? = some before ∧
      Target.Rebuilt newId settings before results after := by
  obtain ⟨targets, isRebuilt, pairs⟩ := Project.exists_plain_targets done
  rw [isRebuilt] at isAfter
  obtain ⟨plain, extras, isPlain, added, eq⟩ := getElem?_keepExtensions isAfter
  obtain ⟨before, isBefore, results, compiledAll, rfl⟩ := exists_of_getElem?_right pairs isPlain
  exact ⟨before, results, isBefore, compiledAll, extras, added, eq⟩

/-- Each target of a rebuilt program is rebuilt from its own outcomes. -/
theorem Project.rebuilt_target {newId : List String → String} {settings : Settings}
    {source rebuilt : Project} {report : RebuildReport}
    (done : source.precompile? newId settings = some (rebuilt, report)) {index : Nat}
    {before after : Target} (isBefore : source.targets[index]? = some before)
    (isAfter : rebuilt.targets[index]? = some after) :
    ∃ results, Target.Rebuilt newId settings before results after := by
  obtain ⟨other, results, isOther, isRebuilt⟩ := Project.exists_rebuilt_target done isAfter
  obtain rfl := Option.some.inj (isOther.symm.trans isBefore)
  exact ⟨results, isRebuilt⟩

/-- What is found in a rebuilt target is a placeholder or was written for a unit. -/
theorem Target.Rebuilt.get?_cases {newId : List String → String} {settings : Settings}
    {before after : Target} {results : TargetResults}
    (rebuilt : Target.Rebuilt newId settings before results after) {id : String} {stored : BlockEntry}
    (found : after.blocks.get? id = some stored) :
    (∃ opcode, stored = .block (.placeholder opcode)) ∨
      ∃ compiled ∈ results.units, Origin settings before compiled id stored := by
  obtain ⟨extras, added, rfl⟩ := rebuilt.isAfter
  rcases Table.mem_of_get?_insertAll found with extra | kept
  · exact .inl (added.isPlaceholder _ extra)
  · exact .inr (Target.origin_of_rebuild kept)

theorem Block.marker_inj {parent other text shown : String}
    (same : Block.marker parent text = Block.marker other shown) :
    parent = other ∧ text = shown := by
  have parents := congrArg Block.parent same
  have inputs := congrArg (fun block => block.inputs.entries) same
  exact ⟨by simpa [Block.marker] using parents,
    by simpa [Block.marker, Table.insert, Table.store, Table.empty] using inputs⟩

/-- A top block that is moved does not become a marker. -/
theorem Layout.place_eq_marker {grid : Grid} {cursor : Layout.Cursor} {block : Block}
    {parent text : String} (isMarker : (Layout.place grid cursor block).1 = .marker parent text) :
    block = .marker parent text := by
  unfold Layout.place at isMarker
  split at isMarker
  · exact isMarker
  · have x := congrArg Block.x isMarker
    simp [Block.marker, Block.bare] at x

/-- A marker of a rebuilt program was a marker before or has been planted for a unit. -/
theorem Project.marker_cases {newId : List String → String} {settings : Settings}
    {source rebuilt : Project} {report : RebuildReport}
    (done : source.precompile? newId settings = some (rebuilt, report)) {index : Nat}
    {original target : Target} (isOriginal : source.targets[index]? = some original)
    (isTarget : rebuilt.targets[index]? = some target) {id parent text : String}
    (isMarker : target.block? id = some (.marker parent text)) :
    original.block? id = some (.marker parent text) ∨
      ∃ results compiled top, original.compile? = some results ∧ compiled ∈ results.units ∧
        compiled.top = parent ∧ compiled.plan settings original = .ok (top, text) ∧
        top.next = some id := by
  obtain ⟨results, isRebuilt⟩ := Project.rebuilt_target done isOriginal isTarget
  rcases isRebuilt.get?_cases (Target.block?_eq_some.mp isMarker) with ⟨opcode, placeholder⟩ |
    ⟨compiled, mem, origin⟩
  · have topLevel := congrArg Block.topLevel (BlockEntry.block.inj placeholder)
    simp [Block.marker, Block.bare, Block.placeholder] at topLevel
  · generalize same : BlockEntry.block (.marker parent text) = entry at origin
    cases origin with
    | kept _ _ stored => exact .inl (Target.block?_eq_some.mpr (same ▸ stored))
    | held _ _ _ stored => exact .inl (Target.block?_eq_some.mpr (same ▸ stored))
    | moved isTop plan =>
        subst isTop
        obtain ⟨body, -, found, -⟩ := CompiledUnit.plan_eq_ok.mp plan
        have isTop := Layout.place_eq_marker (BlockEntry.block.inj same).symm
        exact .inl (isTop ▸ found)
    | planted plan behind =>
        obtain ⟨rfl, rfl⟩ := Block.marker_inj (BlockEntry.block.inj same)
        exact .inr ⟨results, compiled, _, isRebuilt.outcomes, mem, rfl, plan, behind⟩

/-- Everything that is planted can be loaded again, unchanged.  The URL of a rebuilt program holds a
document that every unsandboxed host installs.  With its helpers the text that is planted for a unit,
and so the text of every marker that was not there before, is parsed as the script of the unit and
linked. -/
theorem planted_code_loads_unchanged {newId : List String → String} {settings : Settings}
    {source rebuilt : Project} {report : RebuildReport}
    (done : source.precompile? newId settings = some (rebuilt, report))
    (numbers : ∀ target ∈ source.targets, ∀ x ∈ target.literalNumbers, x.isFinite = true) :
    ∃ url document bootstrap,
      rebuilt.extensionUrls.get? supportExtension = some url ∧
      Bootstrap.documentOfUrl? url = some document ∧
      Bootstrap.parse document = .ok bootstrap ∧
      (∀ host : Host, host.unsandboxed = true → ∃ installed, host.install url = .ok installed) ∧
      (∀ target ∈ source.targets, ∀ results, target.compile? = some results →
        ∀ compiled ∈ results.units, ∀ text, compiled.Plants settings target text →
          target.LoadsAs (approvedHelpers bootstrap.helpers) compiled.top text) ∧
      ∀ (index : Nat) (original target : Target), source.targets[index]? = some original →
        rebuilt.targets[index]? = some target →
        ∀ id parent text, target.block? id = some (.marker parent text) →
          original.block? id = some (.marker parent text) ∨
            original.LoadsAs (approvedHelpers bootstrap.helpers) parent text := by
  refine ⟨_, _, _, ?_, Bootstrap.documentOfUrl?_url _,
    Bootstrap.parse_notice_document Bootstrap.currentVersion settings.minify,
    fun host unsandboxed => ⟨_, Host.install_document unsandboxed _ _⟩, ?_, ?_⟩
  · obtain ⟨outcomes, -, isRebuilt⟩ := Option.bind_eq_some_iff.mp done
    obtain ⟨rfl, -⟩ := Prod.mk.inj (Option.some.inj isRebuilt)
    simp [Table.get?_insert]
  · rintro target mem results compiledAll compiled isUnit text ⟨top, plan, -⟩
    exact loadsAs_of_plan compiledAll (numbers target mem) isUnit plan
  · intro index original target isOriginal isTarget id parent text isMarker
    rcases Project.marker_cases done isOriginal isTarget isMarker with before | planted
    · exact .inl before
    · obtain ⟨results, compiled, top, compiledAll, isUnit, rfl, plan, -⟩ := planted
      have mem := List.mem_of_getElem? isOriginal
      exact .inr (loadsAs_of_plan compiledAll (numbers original mem) isUnit plan)

/-- A flag starts a script that sets a variable to a half. -/
def settingTarget : Target where
  isStage := true
  name := "Stage"
  vars := .empty
  blocks := ⟨[
    ("h", .block { Block.bare "event_whenflagclicked" with next := some "a", topLevel := true }),
    ("a", .block { Block.bare "data_setvariableto" with
      parent := some "h"
      inputs := ⟨[("VALUE", .array [.int 1, .array [.int 4, .text "0.5"]])]⟩
      fields := ⟨[("VARIABLE", .array [.text "x", .text "x"])]⟩ })]⟩
  comments := .empty
  extra := .empty

def settingProgram : Project := ⟨[settingTarget], [], .empty, .empty⟩

theorem settingTarget_plants :
    ∃ results compiled, settingTarget.compile? = some results ∧ compiled ∈ results.units ∧
      compiled.top = "h" ∧ compiled.Plants .default settingTarget "(script()(set\"x\"0.5))" := by
  have planned : (settingTarget.compile?.map fun results => results.units.map fun compiled =>
      (compiled.top, (compiled.plan .default settingTarget).toOption.map fun planned =>
        (planned.1.next, planned.2))) = some [("h", some (some "a", "(script()(set\"x\"0.5))"))] := by
    decide +kernel
  obtain ⟨results, compiledAll, units⟩ := Option.map_eq_some_iff.mp planned
  obtain ⟨compiled, isUnit, same⟩ := List.map_eq_singleton_iff.mp units
  obtain ⟨isTop, same⟩ := Prod.mk.inj same
  obtain ⟨⟨top, text⟩, plan, same⟩ := Option.map_eq_some_iff.mp same
  obtain ⟨behind, rfl⟩ := Prod.mk.inj same
  exact ⟨results, compiled, compiledAll, by simp [isUnit], isTop, top, toOption_eq_some.mp plan,
    by simp_all⟩

/-- The size-reduced step code of that script is loaded with the helpers that the URL brings. -/
theorem planted_code_of_settingProgram_loads :
    ∃ rebuilt report url document bootstrap,
      settingProgram.precompile? (fun _ => "p") .default = some (rebuilt, report) ∧
      rebuilt.extensionUrls.get? supportExtension = some url ∧
      Bootstrap.documentOfUrl? url = some document ∧ Bootstrap.parse document = .ok bootstrap ∧
      settingTarget.LoadsAs (approvedHelpers bootstrap.helpers) "h" "(script()(set\"x\"0.5))" := by
  have ends : (settingProgram.precompile? (fun _ => "p") .default).isSome := by decide +kernel
  obtain ⟨⟨rebuilt, report⟩, done⟩ := Option.isSome_iff_exists.mp ends
  have numbers : ∀ target ∈ settingProgram.targets, ∀ x ∈ target.literalNumbers,
      x.isFinite = true := by decide +kernel
  obtain ⟨url, document, bootstrap, isUrl, isDocument, isBootstrap, -, loads, -⟩ :=
    planted_code_loads_unchanged done numbers
  obtain ⟨results, compiled, compiledAll, isUnit, isTop, plants⟩ := settingTarget_plants
  have mem : settingTarget ∈ settingProgram.targets := List.mem_singleton.mpr rfl
  have loaded := loads settingTarget mem results compiledAll compiled isUnit _ plants
  rw [isTop] at loaded
  exact ⟨rebuilt, report, url, document, bootstrap, done, isUrl, isDocument, isBootstrap, loaded⟩

end StepCode
