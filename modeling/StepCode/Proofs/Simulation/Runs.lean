import StepCode.Proofs.Simulation.Start

/-!
# Runs side by side

A compiled program does in every tick what the interpreted one does in the tick before: its first tick
only attaches step code, and from then on the two run abreast.
-/

namespace StepCode

/-- Ticks one after the other, each after a pause. -/
def Host.tickAll? (foreign : Foreign) (limits : Limits) (host : Host) (pauses : List Nat) : Option Host :=
  pauses.foldlM (fun host pause => (host.advanceClock pause).tick? foreign limits) host

/-! ## From the second tick on -/

section

variable {world : World} {foreign : Foreign} {limits : Limits} {host other : Host}

theorem World.Abreast.advanceClock (abreast : world.Abreast host other) (pause : Nat) :
    world.Abreast (host.advanceClock pause) (other.advanceClock pause) :=
  { abreast with
    alike := abreast.alike
    clock := by
      simp only [Host.advanceClock, abreast.clock]
      omega }

/-- Any ticks keep the compiled program abreast, by induction on them. -/
theorem World.Abreast.exists_tickAll? (sound : world.Sound) (abreast : world.Abreast host other)
    {pauses : List Nat} {last : Host} (ran : host.tickAll? foreign limits pauses = some last) :
    ∃ (steps : Nat) (final : Host), world.Abreast last final ∧
      (pauses ≠ [] → List.Forall₂ world.Pair last.threads final.threads) ∧
      ∀ limits : Limits, steps ≤ limits.steps → other.tickAll? foreign limits pauses = some final := by
  induction pauses generalizing host other with
  | nil =>
      obtain rfl := Option.some.inj ran
      exact ⟨0, other, abreast, fun ticks => absurd rfl ticks, fun _ _ => rfl⟩
  | cons pause pauses ih =>
      unfold Host.tickAll? at ran
      rw [List.foldlM_cons] at ran
      obtain ⟨next, ticked, ran⟩ := Option.bind_eq_some_iff.mp ran
      obtain ⟨steps, after, nextAbreast, pairs, follow⟩ :=
        (abreast.advanceClock pause).exists_tick? sound ticked
      obtain ⟨more, final, lastAbreast, lastPairs, followers⟩ := ih nextAbreast ran
      refine ⟨max steps more, final, lastAbreast, fun _ => ?_, fun limits enough => ?_⟩
      · cases pauses with
        | nil =>
            obtain rfl := Option.some.inj ran
            have isFinal : some after = some final :=
              followers ⟨more, 0⟩ (Nat.le_refl _)
            exact Option.some.inj isFinal ▸ pairs
        | cons => exact lastPairs (by simp)
      · unfold Host.tickAll?
        rw [List.foldlM_cons, follow limits (Nat.le_trans (Nat.le_max_left ..) enough)]
        exact followers limits (Nat.le_trans (Nat.le_max_right ..) enough)

end

/-! ## The first tick -/

section

variable {newId : List String → String} {settings : Settings} {source rebuilt : Project}
  {report : RebuildReport} {opcode : String} {field : Option (String × String)}

/-- Threads of the same scripts in the same order that are renamed are pairs, if one has been started and
the other has begun. -/
theorem World.pairs_of_begun {world : World} {lefts started nexts : List Thread}
    (areStarts : ∀ thread ∈ lefts, thread = .start thread.id thread.target thread.topBlock)
    (begins : List.Forall₂ (Begins world.befores world.afters) started nexts)
    {rights : List Thread} (goOn : ∀ next ∈ rights, next ∈ nexts ∧ next.isDone = false)
    (scripts : rights.map Thread.script = lefts.map Thread.script)
    (ids : (lefts.map Thread.id).map world.rename = rights.map Thread.id) :
    List.Forall₂ world.Pair lefts rights := by
  have sameLength : lefts.length = rights.length := by
    simpa using (congrArg List.length scripts).symm
  refine List.forall₂_iff_get.mpr ⟨sameLength, fun index isLeft isRight => ?_⟩
  obtain ⟨mem, alive⟩ := goOn _ (List.getElem_mem isRight)
  obtain ⟨thread, -, begun⟩ := exists_of_mem_right begins mem
  have script := congrArg (fun scripts => scripts[index]?) scripts
  have id := congrArg (fun ids => ids[index]?) ids
  simp only [List.getElem?_map, List.getElem?_eq_getElem isLeft, List.getElem?_eq_getElem isRight,
    Option.map_some, Option.some.injEq] at script id
  exact begun.pair alive (areStarts _ (List.getElem_mem isLeft)) script id.symm

/-- After the first tick the threads of the compiled program follow those that the event has started in
the interpreted one. -/
theorem exists_aligned {befores afters : List Target} (fresh : ∀ used, newId used ∉ used)
    (simulable : ∀ before ∈ befores, before.Simulable)
    (pairs : List.Forall₂ (fun before after => ∃ results,
      Target.Rebuilt newId settings before results after) befores afters)
    (isEvent : opcode ∈ hatOpcodes) (first : Nat) {other : Nat} {nexts : List Thread}
    (begins : List.Forall₂ (Begins befores afters)
      (Thread.startAll other (startedScripts afters opcode field)) nexts) :
    ∃ rename : Equiv.Perm Nat, ∀ shift, World.Aligned ⟨befores, afters, shift, rename⟩
      (World.Idle ⟨befores, afters, shift, rename⟩)
      (Thread.startAll first (startedScripts befores opcode field))
      (nexts.filter fun thread => !thread.isDone) := by
  let lefts := Thread.startAll first (startedScripts befores opcode field)
  let keep := fun thread : Thread => scriptHasBody befores thread.script
  have areStarts : ∀ thread ∈ lefts, thread = .start thread.id thread.target thread.topBlock ∧
      thread.script ∈ startedScripts befores opcode field := fun thread => Thread.eq_start_of_mem_startAll
  have scripts : (nexts.filter fun thread => !thread.isDone).map Thread.script =
      (lefts.filter keep).map Thread.script := by
    have same : List.Forall₂ (fun before after : Target =>
        (before.started opcode field).filter before.hasBody =
          (after.started opcode field).filter after.hasBody) befores afters := by
      refine ((List.forall₂_and_left ..).mpr ⟨simulable, pairs⟩).imp ?_
      rintro before after ⟨fits, results, isRebuilt⟩
      exact (isRebuilt.filter_started fresh fits.linked isEvent).symm
    have kept : (lefts.filter keep).map Thread.script =
        (lefts.map Thread.script).filter (scriptHasBody befores) := by
      rw [List.filter_map]
      rfl
    rw [map_script_filter begins, kept, Thread.map_script_startAll, Thread.map_script_startAll,
      filter_startedScripts_congr same]
  have ids : ((lefts.filter keep).map Thread.id).Nodup :=
    (Thread.nodup_id_startAll first _).sublist (List.filter_sublist.map _)
  have nextIds : (Thread.startAll other (startedScripts afters opcode field)).map Thread.id =
      nexts.map Thread.id :=
    map_eq_of_forall₂ begins fun thread next begun => begun.id_eq.symm
  have otherIds : ((nexts.filter fun thread => !thread.isDone).map Thread.id).Nodup :=
    (nextIds ▸ Thread.nodup_id_startAll other _).sublist (List.filter_sublist.map _)
  obtain ⟨rename, renamed⟩ := exists_rename ids otherIds (by
    simpa using (congrArg List.length scripts).symm)
  refine ⟨rename, fun shift => .of_filter (fun thread mem noBody => ?_)
    (World.pairs_of_begun (fun thread mem => ?_) begins (fun next mem => ?_) scripts renamed)⟩
  · exact World.idle_of_bodyless simulable isEvent (areStarts thread mem).1 (areStarts thread mem).2 noBody
  · exact (areStarts thread (List.mem_of_mem_filter mem)).1
  · simpa using List.mem_filter.mp mem

/-- A host that has just been loaded. -/
structure Host.Loaded (project : Project) (host : Host) : Prop where
  targets : host.targets = project.targets.map LiveTarget.start
  threads : host.threads = []
  now : host.now = 0
  still : host.drift = []
  errors : host.errors = []
  stops : host.stops = []

namespace Host.Loaded

variable {project : Project} {host other : Host}

theorem of_load {unsandboxed : Bool} (loaded : Host.load project unsandboxed = .ok host) :
    host.Loaded project := by
  rcases Host.load_cases loaded with rfl | ⟨bootstrap, rfl⟩
  · exact ⟨rfl, rfl, rfl, rfl, rfl, rfl⟩
  · exact ⟨rfl, rfl, rfl, rfl, rfl, rfl⟩

theorem data (loaded : host.Loaded project) : host.targets.map LiveTarget.data = project.targets := by
  rw [loaded.targets, List.map_map]
  exact List.map_id _

/-- An event starts all of its scripts. -/
theorem startHats_eq (loaded : host.Loaded project)
    (distinct : ∀ target ∈ project.targets, target.blocks.keys.Nodup) :
    ∃ nextThread, (host.startHats opcode field).1 = { host with
      threads := Thread.startAll host.nextThread (startedScripts project.targets opcode field)
      nextThread := nextThread } := by
  rw [← loaded.data] at distinct ⊢
  exact Host.startHats_eq loaded.threads distinct

/-- A program and its rebuilt form begin with the same values. -/
theorem alike (left : host.Loaded source) (right : other.Loaded rebuilt)
    (done : source.precompile? newId settings = some (rebuilt, report)) : host.Alike other := by
  unfold Host.Alike
  rw [left.targets, right.targets]
  refine List.forall₂_map_left_iff.mpr (List.forall₂_map_right_iff.mpr
    ((Project.forall₂_rebuilt done).imp ?_))
  rintro before after ⟨results, isRebuilt⟩
  exact isRebuilt.alike

end Host.Loaded

/-- Behind its first tick, the compiled program is where the interpreted one begins. -/
theorem exists_abreast (fresh : ∀ used, newId used ∉ used)
    (done : source.precompile? newId settings = some (rebuilt, report))
    (names : (source.targets.map Target.name).Nodup)
    (simulable : ∀ before ∈ source.targets, before.Simulable) {unsandboxed : Bool} {interpreted : Host}
    (loaded : Host.load source unsandboxed = .ok interpreted) (isEvent : opcode ∈ hatOpcodes)
    (foreign : Foreign) :
    ∃ (compiled : Host) (rename : Equiv.Perm Nat), Host.load rebuilt true = .ok compiled ∧
      ∀ pause, ∃ first, World.Abreast ⟨source.targets, rebuilt.targets, pause, rename⟩
          (interpreted.startHats opcode field).1 first ∧
        ∀ limits : Limits, 2 ≤ limits.steps →
          ((compiled.startHats opcode field).1.advanceClock pause).tick? foreign limits = some first := by
  have pairs := Project.forall₂_rebuilt done
  have distinct : ∀ after ∈ rebuilt.targets, after.blocks.keys.Nodup := by
    intro after mem
    obtain ⟨_, -, results, isRebuilt⟩ := exists_of_mem_right pairs mem
    exact isRebuilt.nodup_keys
  obtain ⟨compiled, isLoaded, registered, support, hasSupport, agrees⟩ := Project.exists_equipped done
  have left := Host.Loaded.of_load loaded
  have right := Host.Loaded.of_load isLoaded
  obtain ⟨leftNext, leftStarted⟩ :=
    left.startHats_eq fun before mem => (simulable before mem).linked.distinct
  obtain ⟨rightNext, rightStarted⟩ := right.startHats_eq distinct
  obtain ⟨nexts, begins⟩ := exists_begin_all fresh simulable pairs isEvent
    fun thread => @Thread.eq_start_of_mem_startAll compiled.nextThread _ thread
  obtain ⟨rename, aligned⟩ := exists_aligned fresh simulable pairs isEvent interpreted.nextThread begins
  have alone := (World.sound_of_rebuilt fresh done names simulable 0 rename).alone
  have alike : interpreted.Alike compiled := left.alike right done
  refine ⟨compiled, rename, isLoaded, fun pause => ?_⟩
  rw [leftStarted, rightStarted]
  have equipped : Host.Equipped rebuilt.targets (Host.advanceClock { compiled with
      threads := Thread.startAll compiled.nextThread (startedScripts rebuilt.targets opcode field)
      nextThread := rightNext } pause) :=
    ⟨right.data, registered, support, hasSupport, fun after _ => agrees after⟩
  obtain ⟨later, ⟨data, -, equippedSupport⟩, ticks⟩ :=
    equipped.exists_tick? foreign alone right.stops right.still begins
  refine ⟨_, ?_, ticks⟩
  exact {
    alike := alike
    befores := left.data
    afters := data
    clock := by
      change compiled.now + pause = interpreted.now + pause
      rw [left.now, right.now]
    still := ⟨left.still, right.still⟩
    errors := right.errors.trans left.errors.symm
    noStops := ⟨left.stops, right.stops⟩
    support := equippedSupport
    threads := aligned pause }

end

/-! ## Whole runs -/

/-- Of hosts that are alike the same was said. -/
theorem Host.Alike.said_eq {left right : Host} (alike : left.Alike right) :
    left.targets.map LiveTarget.said = right.targets.map LiveTarget.said :=
  map_eq_of_forall₂ alike fun _ _ pair => pair.said

/-- Compiled programs run one tick behind.  Take a program whose compiled code does what its blocks do, and
whose targets have names of their own, and start the scripts of an event in it and in its rebuilt form.
After any ticks of the interpreted program and one tick more of the compiled one, whatever the pauses
between them, the variables have the same values, up to none for the empty text, the same was said, the
same errors were met, and the same scripts go on in the same order.  The ticks of the compiled program end
wherever those of the interpreted one do. -/
theorem compiled_programs_run_one_tick_behind {newId : List String → String} {settings : Settings}
    {source rebuilt : Project} {report : RebuildReport} (fresh : ∀ used, newId used ∉ used)
    (done : source.precompile? newId settings = some (rebuilt, report))
    (names : (source.targets.map Target.name).Nodup)
    (simulable : ∀ before ∈ source.targets, before.Simulable) {unsandboxed : Bool} {interpreted : Host}
    (loaded : Host.load source unsandboxed = .ok interpreted) {opcode : String}
    (field : Option (String × String)) (isEvent : opcode ∈ hatOpcodes) (foreign : Foreign) :
    ∃ compiled, Host.load rebuilt true = .ok compiled ∧
      ∀ (limits : Limits) (pauses : List Nat) (last : Host),
        (interpreted.startHats opcode field).1.tickAll? foreign limits pauses = some last →
        ∀ pause, ∃ steps final, last.Alike final ∧ final.errors = last.errors ∧
          (pauses ≠ [] → final.threads.map Thread.script = last.threads.map Thread.script) ∧
          ∀ limits : Limits, steps ≤ limits.steps →
            (compiled.startHats opcode field).1.tickAll? foreign limits (pause :: pauses) = some final := by
  obtain ⟨compiled, rename, isLoaded, begins⟩ :=
    exists_abreast fresh done names simulable loaded isEvent foreign
  refine ⟨compiled, isLoaded, fun limits pauses last ran pause => ?_⟩
  obtain ⟨first, abreast, attaches⟩ := begins pause
  have sound := World.sound_of_rebuilt fresh done names simulable pause rename
  obtain ⟨steps, final, lastAbreast, pairs, follow⟩ := abreast.exists_tickAll? sound ran
  refine ⟨max 2 steps, final, lastAbreast.alike, lastAbreast.errors, fun ticks => ?_,
    fun limits enough => ?_⟩
  · refine (map_eq_of_forall₂ (pairs ticks) fun thread follower pair => ?_).symm
    exact (Prod.ext pair.target pair.topBlock).symm
  · unfold Host.tickAll?
    rw [List.foldlM_cons, attaches limits (Nat.le_trans (Nat.le_max_left ..) enough)]
    exact follow limits (Nat.le_trans (Nat.le_max_right ..) enough)

/-- A flag starts a script that counts to two and says the count, and another that says something at
once. -/
def countingTarget : Target where
  isStage := true
  name := "Stage"
  vars := ⟨[("v", .array [.text "x", .text "0"])]⟩
  blocks := ⟨[
    ("h", .block { Block.bare "event_whenflagclicked" with next := some "l", topLevel := true }),
    ("l", .block { Block.bare "control_repeat_until" with
      next := some "s"
      parent := some "h"
      inputs := ⟨[("CONDITION", .array [.int 2, .text "e"]), ("SUBSTACK", .array [.int 2, .text "c"])]⟩ }),
    ("e", .block { Block.bare "operator_equals" with
      parent := some "l"
      inputs := ⟨[("OPERAND1", .array [.int 3, .array [.int 12, .text "x", .text "v"], .null]),
        ("OPERAND2", .array [.int 1, .array [.int 10, .text "2"]])]⟩ }),
    ("c", .block { Block.bare "data_changevariableby" with
      parent := some "l"
      inputs := ⟨[("VALUE", .array [.int 1, .array [.int 4, .text "1"]])]⟩
      fields := ⟨[("VARIABLE", .array [.text "x", .text "v"])]⟩ }),
    ("s", .block { Block.bare "looks_say" with
      parent := some "l"
      inputs := ⟨[("MESSAGE", .array [.int 3, .array [.int 12, .text "x", .text "v"], .null])]⟩ }),
    ("g", .block { Block.bare "event_whenflagclicked" with next := some "t", topLevel := true }),
    ("t", .block { Block.bare "looks_think" with
      parent := some "g"
      inputs := ⟨[("MESSAGE", .array [.int 1, .array [.int 10, .text "hm"]])]⟩ })]⟩
  comments := .empty
  extra := .empty

theorem countingTarget_simulable : countingTarget.Simulable :=
  ⟨by decide +kernel, by decide +kernel, Target.compilesFully_of_all (by decide +kernel), by decide +kernel⟩

/-- The interpreted program counts for two ticks and speaks in the third. -/
theorem counting_in_step :
    ∃ rebuilt report compiled steps final,
      countingTarget.program.precompile? (freshId 0) .default = some (rebuilt, report) ∧
      Host.load rebuilt true = .ok compiled ∧
      (∀ limits : Limits, steps ≤ limits.steps →
        compiled.greenFlag.1.tickAll? idleForeign limits [5, 1, 1, 1] = some final) ∧
      final.targets.map LiveTarget.said = [["hm", "2"]] ∧ final.threads.map Thread.script = [] := by
  have ends : (countingTarget.program.precompile? (freshId 0) .default).isSome := by decide +kernel
  obtain ⟨⟨rebuilt, report⟩, done⟩ := Option.isSome_iff_exists.mp ends
  have loaded : Host.load countingTarget.program false = .ok (Host.start countingTarget.program) := rfl
  have shown : ((Host.start countingTarget.program).greenFlag.1.tickAll? idleForeign ⟨20, 5⟩ [1, 1, 1]).map
      (fun host => (host.targets.map LiveTarget.said, host.threads.map Thread.script)) =
        some ([["hm", "2"]], []) := by decide +kernel
  obtain ⟨last, ran, isShown⟩ := Option.map_eq_some_iff.mp shown
  obtain ⟨said, idle⟩ := Prod.mk.inj isShown
  obtain ⟨compiled, isLoaded, runs⟩ := compiled_programs_run_one_tick_behind (freshId_not_mem 0) done
    (by decide) (fun target mem => List.mem_singleton.mp mem ▸ countingTarget_simulable) loaded none
    (show "event_whenflagclicked" ∈ hatOpcodes by decide) idleForeign
  obtain ⟨steps, final, alike, -, scripts, follow⟩ := runs ⟨20, 5⟩ [1, 1, 1] last ran 5
  exact ⟨rebuilt, report, compiled, steps, final, done, isLoaded, follow, alike.said_eq ▸ said,
    (scripts (by simp)).trans idle⟩

/-! ## Where the two part ways -/

/-- A flag starts a script that says something. -/
def sayingTarget (message : String) : Target where
  isStage := false
  name := "S"
  vars := .empty
  blocks := ⟨[
    ("h", .block { Block.bare "event_whenflagclicked" with next := some "s", topLevel := true }),
    ("s", .block { Block.bare "looks_say" with
      parent := some "h"
      inputs := ⟨[("MESSAGE", .array [.int 1, .array [.int 10, .text message]])]⟩ })]⟩
  comments := .empty
  extra := .empty

/-- Two targets of one name, with blocks of the same ids. -/
def namesakes : Project := ⟨[sayingTarget "one", sayingTarget "two"], [], .empty, .empty⟩

theorem namesakes_simulable : ∀ target ∈ namesakes.targets, target.Simulable := by
  have compiles : ∀ target ∈ namesakes.targets, target.compile?.map
      (fun results => results.units.all CompiledUnit.succeeded) = some true := by decide +kernel
  have linked : ∀ target ∈ namesakes.targets, target.EntriesLinked := by decide +kernel
  have plain : ∀ target ∈ namesakes.targets, target.Plain := by decide +kernel
  have finite : ∀ target ∈ namesakes.targets, ∀ x ∈ target.literalNumbers, x.isFinite = true := by
    decide +kernel
  exact fun target mem => ⟨linked target mem, plain target mem,
    Target.compilesFully_of_all (compiles target mem), finite target mem⟩

/-- The step code of a script that says something. -/
def sayingRoutine (message : String) : Routine :=
  ⟨⟨[], [.op "looks_say" [("MESSAGE", .text message)]]⟩,
    Routine.numbered [.op "looks_say" [("MESSAGE", .text message)]], .empty, rfl⟩

/-- A thread of such a script behind its first turn. -/
def sayingThread (id : Nat) (message : String) : Thread :=
  { Thread.start id id "h" with
    status := .yielded
    frames := [.start "s"]
    compiled := some ⟨none, [.enter (sayingRoutine message) .empty false]⟩ }

/-- What the target has become in a rebuilt program. -/
structure SaysOwn (message : String) (after : Target) : Prop where
  name : after.name = "S"
  code : ∃ hat text, after.block? "h" = some hat ∧ hat.Passes ∧ hat.next = some "s" ∧
    after.block? "s" = some (.marker "h" text) ∧
    Routine.load text (approvedHelpers Helper.shipped) = .ok (sayingRoutine message)

theorem SaysOwn.of_rebuilt {message : String} {results : TargetResults} {after : Target}
    (rebuilt : Target.Rebuilt (freshId 0) .default (sayingTarget message) results after)
    (simulable : (sayingTarget message).Simulable)
    (told : Lowering.chain ⟨sayingTarget message, [], false⟩ (some "s") =
      .ok (sayingRoutine message).script.body) : SaysOwn message after := by
  have found : (sayingTarget message).block? "h" =
      some { Block.bare "event_whenflagclicked" with next := some "s", topLevel := true } := rfl
  obtain ⟨-, -, -, x, y, moved⟩ :=
    rebuilt.exists_moved_hat (freshId_not_mem 0) simulable.linked found rfl rfl
  obtain ⟨text, routine, planted, loads, noParams, lowered, -⟩ := rebuilt.exists_marker (freshId_not_mem 0)
    simulable.linked simulable.plain simulable.finite simulable.compiles found rfl rfl rfl
  have isScript : routine.script = (sayingRoutine message).script := by
    have isBody := Except.ok.inj (lowered.symm.trans told)
    calc routine.script = ⟨routine.params, routine.script.body⟩ := rfl
      _ = (sayingRoutine message).script := by rw [noParams, isBody]; rfl
  have isRoutine : routine = sayingRoutine message := Routine.eq_of_load_helperless loads isScript rfl
  exact ⟨rebuilt.alike.name.symm, _, text, moved, rebuilt.passes simulable.plain moved rfl, rfl, planted,
    isRoutine ▸ loads⟩

/-- Support that has met the first marker. -/
def sayingSupport : Support :=
  { Support.ofBootstrap ⟨Bootstrap.currentVersion, Helper.shipped⟩ with
    entered := true
    markers := Cache.empty.add ("S", "s") (sayingRoutine "one") }

/-- The compiled program behind its first tick: both scripts have the code of the first one. -/
def namesakesAttached (rebuilt : Project) : Host :=
  { Host.start rebuilt with
    unsandboxed := true
    extensions := Table.empty.insert supportExtension .support
    support := some sayingSupport
    ticks := 1
    nextThread := 2
    threads := [sayingThread 0 "one", sayingThread 1 "one"] }

/-- The compiled program as it is loaded. -/
def namesakesLoaded (rebuilt : Project) : Host :=
  { Host.start rebuilt with
    unsandboxed := true
    support := some (.ofBootstrap ⟨Bootstrap.currentVersion, Helper.shipped⟩)
    extensions := Table.empty.insert supportExtension .support }

theorem load_namesakes {rebuilt : Project} {report : RebuildReport}
    (done : namesakes.precompile? (freshId 0) .default = some (rebuilt, report)) :
    Host.load rebuilt true = .ok (namesakesLoaded rebuilt) := by
  obtain ⟨compiled, loaded, isSupport⟩ := Host.load_precompiled done
  rcases Host.load_cases loaded with rfl | ⟨bootstrap, rfl⟩
  · cases isSupport
  · have same : Support.ofBootstrap bootstrap = _ := Option.some.inj isSupport
    rw [loaded, same]
    rfl

section

variable {rebuilt : Project} {report : RebuildReport}

theorem exists_namesakes
    (done : namesakes.precompile? (freshId 0) .default = some (rebuilt, report)) :
    ∃ first second, rebuilt.targets = [first, second] ∧ SaysOwn "one" first ∧ SaysOwn "two" second := by
  obtain ⟨first, rest, ⟨_, isFirst⟩, later, isTargets⟩ :=
    List.forall₂_cons_left_iff.mp (Project.forall₂_rebuilt done)
  obtain ⟨second, others, ⟨_, isSecond⟩, last, rfl⟩ := List.forall₂_cons_left_iff.mp later
  obtain rfl := List.forall₂_nil_left_iff.mp last
  exact ⟨first, second, isTargets, .of_rebuilt isFirst (namesakes_simulable _ (by simp [namesakes])) rfl,
    .of_rebuilt isSecond (namesakes_simulable _ (by simp [namesakes])) rfl⟩

/-- The flag starts both scripts. -/
theorem greenFlag_namesakes
    (done : namesakes.precompile? (freshId 0) .default = some (rebuilt, report)) :
    (namesakesLoaded rebuilt).greenFlag.1 = { namesakesLoaded rebuilt with
      threads := [.start 0 0 "h", .start 1 1 "h"]
      nextThread := 2 } := by
  have scripts : (namesakes.precompile? (freshId 0) .default).map (fun done =>
      startedScripts done.1.targets "event_whenflagclicked" none) = some [(0, "h"), (1, "h")] := by
    decide +kernel
  rw [done] at scripts
  have listed : startedScripts rebuilt.targets "event_whenflagclicked" none = [(0, "h"), (1, "h")] :=
    Option.some.inj scripts
  unfold Host.greenFlag Host.startHats
  rw [Host.matchingHats_eq, (Host.Loaded.of_load (load_namesakes done)).data, listed]
  rfl

/-- The host during the first tick: its targets, its support and its extensions. -/
def namesakesDuring (rebuilt : Project) (support : Support) : Host :=
  { namesakesLoaded rebuilt with
    ticks := 1
    nextThread := 2
    support := some support }

/-- The first script attaches its code, and the second one finds that of the first under the name of its
target and the id of its marker. -/
theorem take?_namesakes
    (done : namesakes.precompile? (freshId 0) .default = some (rebuilt, report)) :
    Turn.take? idleForeign ⟨20, 5⟩ ⟨namesakesDuring rebuilt
        (.ofBootstrap ⟨Bootstrap.currentVersion, Helper.shipped⟩), .start 0 0 "h"⟩ =
      some ⟨namesakesDuring rebuilt sayingSupport, sayingThread 0 "one"⟩ ∧
    Turn.take? idleForeign ⟨20, 5⟩ ⟨namesakesDuring rebuilt sayingSupport, .start 1 1 "h"⟩ =
      some ⟨namesakesDuring rebuilt sayingSupport, sayingThread 1 "one"⟩ := by
  obtain ⟨first, second, isTargets, own, otherOwn⟩ := exists_namesakes done
  obtain ⟨hat, text, foundHat, passes, behind, planted, loads⟩ := own.code
  obtain ⟨otherHat, otherText, foundOther, otherPasses, otherBehind, otherPlanted, -⟩ := otherOwn.code
  have isLoaded : (namesakesLoaded rebuilt).targets = [.start first, .start second] := by
    change rebuilt.targets.map LiveTarget.start = _
    rw [isTargets]
    rfl
  have found (support : Support) (id : String) :
      (namesakesDuring rebuilt support).block? 0 id = first.block? id ∧
        (namesakesDuring rebuilt support).block? 1 id = second.block? id := by
    simp only [Host.block?, namesakesDuring, isLoaded]
    exact ⟨rfl, rfl⟩
  have named (support : Support) : (namesakesDuring rebuilt support).targetName 0 = "S" ∧
      (namesakesDuring rebuilt support).targetName 1 = "S" := by
    simp only [Host.targetName, namesakesDuring, isLoaded]
    exact ⟨own.name, otherOwn.name⟩
  constructor
  · refine take?_marker ((found _ "h").1.trans foundHat) passes behind ((found _ "s").1.trans planted)
      (by rfl) rfl ?_ rfl (by decide)
    rw [(named _).1]
    change (Routine.load text (approvedHelpers Helper.shipped) >>= _) = _
    rw [loads]
    rfl
  · refine take?_marker ((found _ "h").2.trans foundOther) otherPasses otherBehind
      ((found _ "s").2.trans otherPlanted) (by rfl) rfl ?_ rfl (by decide)
    rw [(named _).2]
    rfl

theorem tick?_namesakes
    (done : namesakes.precompile? (freshId 0) .default = some (rebuilt, report)) :
    (namesakesLoaded rebuilt).greenFlag.1.tick? idleForeign ⟨20, 5⟩ =
      some (namesakesAttached rebuilt) := by
  obtain ⟨one, two⟩ := take?_namesakes done
  let fresh := Support.ofBootstrap ⟨Bootstrap.currentVersion, Helper.shipped⟩
  have stepOne : Host.stepAt? idleForeign ⟨20, 5⟩
      (namesakesDuring rebuilt fresh, [.start 0 0 "h", .start 1 1 "h"]) 0 =
      some (namesakesDuring rebuilt sayingSupport, [sayingThread 0 "one", .start 1 1 "h"]) :=
    (Host.stepAt?_middle [] [_]).trans ((if_neg nofun).trans (congrArg _ one))
  have stepTwo : Host.stepAt? idleForeign ⟨20, 5⟩
      (namesakesDuring rebuilt sayingSupport, [sayingThread 0 "one", .start 1 1 "h"]) 1 =
      some (namesakesDuring rebuilt sayingSupport, [sayingThread 0 "one", sayingThread 1 "one"]) :=
    (Host.stepAt?_middle [_] []).trans ((if_neg nofun).trans (congrArg _ two))
  have turns : (List.range 2).foldlM (Host.stepAt? idleForeign ⟨20, 5⟩)
      (namesakesDuring rebuilt fresh, [.start 0 0 "h", .start 1 1 "h"]) =
      some (namesakesDuring rebuilt sayingSupport, [sayingThread 0 "one", sayingThread 1 "one"]) := by
    rw [show List.range 2 = [0, 1] from rfl, List.foldlM_cons, stepOne]
    change Host.stepAt? idleForeign ⟨20, 5⟩ (namesakesDuring rebuilt sayingSupport, _) 1 >>= _ = _
    rw [stepTwo]
    rfl
  rw [greenFlag_namesakes done]
  have ticked : Host.tick? idleForeign ⟨20, 5⟩ { namesakesLoaded rebuilt with
      threads := [.start 0 0 "h", .start 1 1 "h"]
      nextThread := 2 } = some _ := Host.tick?_of_turns turns
  exact ticked

end

/-- Targets of one name share the step code of scripts whose markers have the same id: interpreted, the
second target says its own text, and compiled, that of the first one. -/
theorem namesakes_share_step_code :
    (∀ target ∈ namesakes.targets, target.Simulable) ∧ ∃ rebuilt report interpreted compiled last final,
      namesakes.precompile? (freshId 0) .default = some (rebuilt, report) ∧
      Host.load namesakes false = .ok interpreted ∧ Host.load rebuilt true = .ok compiled ∧
      interpreted.greenFlag.1.tickAll? idleForeign ⟨20, 5⟩ [0] = some last ∧
      compiled.greenFlag.1.tickAll? idleForeign ⟨20, 5⟩ [0, 0] = some final ∧
      last.targets.map LiveTarget.said = [["one"], ["two"]] ∧
      final.targets.map LiveTarget.said = [["one"], ["one"]] := by
  have ends : (namesakes.precompile? (freshId 0) .default).isSome := by decide +kernel
  obtain ⟨⟨rebuilt, report⟩, done⟩ := Option.isSome_iff_exists.mp ends
  have shown : ((Host.start namesakes).greenFlag.1.tickAll? idleForeign ⟨20, 5⟩ [0]).map
      (fun host => host.targets.map LiveTarget.said) = some [["one"], ["two"]] := by decide +kernel
  have shownCompiled : (namesakes.precompile? (freshId 0) .default).bind (fun done =>
      ((namesakesAttached done.1).tick? idleForeign ⟨20, 5⟩).map fun host =>
        host.targets.map LiveTarget.said) = some [["one"], ["one"]] := by decide +kernel
  rw [done] at shownCompiled
  obtain ⟨last, ran, said⟩ := Option.map_eq_some_iff.mp shown
  obtain ⟨final, ticked, saidCompiled⟩ := Option.map_eq_some_iff.mp shownCompiled
  refine ⟨namesakes_simulable, rebuilt, report, _, _, last, final, done, rfl, load_namesakes done, ran, ?_,
    said, saidCompiled⟩
  change ((namesakesLoaded rebuilt).greenFlag.1.tick? idleForeign ⟨20, 5⟩ >>= fun host =>
    host.tick? idleForeign ⟨20, 5⟩ >>= pure) = _
  rw [tick?_namesakes done]
  change (namesakesAttached rebuilt).tick? idleForeign ⟨20, 5⟩ >>= pure = _
  rw [ticked]
  rfl

end StepCode
