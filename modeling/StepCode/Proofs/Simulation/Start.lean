import Mathlib.Logic.Equiv.Basic
import StepCode.Proofs.Host.Schedule
import StepCode.Proofs.Host.Suspending
import StepCode.Proofs.Routine.Scriptless
import StepCode.Proofs.Simulation.Programs
import StepCode.Proofs.Simulation.Ticks

/-!
# How compiled scripts begin

In the first tick of a compiled script its hat is passed and its marker attaches the step code, which
runs from the next tick on.  After this tick the script stands where the interpreted one begins.
-/

namespace StepCode

open Lowering (Place)

/-! ## Started scripts -/

/-- New threads for scripts, with ids from `first` on. -/
def Thread.startAll (first : Nat) (scripts : List (Nat × String)) : List Thread :=
  (scripts.zipIdx first).map fun entry => .start entry.2 entry.1.1 entry.1.2

theorem Thread.map_script_startAll (first : Nat) (scripts : List (Nat × String)) :
    (startAll first scripts).map script = scripts := by
  unfold startAll
  rw [List.map_map]
  exact List.zipIdx_map_fst first scripts

theorem Thread.nodup_id_startAll (first : Nat) (scripts : List (Nat × String)) :
    ((startAll first scripts).map Thread.id).Nodup := by
  have ids : (startAll first scripts).map Thread.id = List.range' first scripts.length := by
    unfold startAll
    rw [List.map_map]
    exact List.zipIdx_map_snd first scripts
  rw [ids]
  exact List.nodup_range'

theorem Thread.eq_start_of_mem_startAll {first : Nat} {scripts : List (Nat × String)} {thread : Thread}
    (mem : thread ∈ startAll first scripts) :
    thread = .start thread.id thread.target thread.topBlock ∧ thread.script ∈ scripts := by
  obtain ⟨⟨script, id⟩, inList, rfl⟩ := List.mem_map.mp mem
  exact ⟨rfl, List.fst_mem_of_mem_zipIdx inList⟩

theorem Thread.lastStarts_of_nodup (first : Nat) {scripts : List (Nat × String)}
    (distinct : scripts.Nodup) : lastStarts first scripts = startAll first scripts := by
  induction scripts generalizing first with
  | nil => rfl
  | cons script rest ih =>
      obtain ⟨absent, distinctRest⟩ := List.nodup_cons.mp distinct
      rw [lastStarts_cons, if_neg absent, ih _ distinctRest]
      rfl

namespace Host

/-- Different scripts that do not run yet are started one after the other. -/
theorem threads_startThreads_of_distinct {host : Host} {scripts : List (Nat × String)}
    (distinct : scripts.Nodup) (apart : ∀ thread ∈ host.threads, thread.script ∉ scripts) :
    (host.startThreads scripts).1.threads =
      host.threads ++ Thread.startAll host.nextThread scripts := by
  rw [threads_startThreads, Thread.lastStarts_of_nodup _ distinct, List.filter_eq_self.mpr]
  intro thread mem
  simp [apart thread mem]

end Host

/-- The scripts that an event starts, by target and hat. -/
def startedScripts (targets : List Target) (opcode : String) (field : Option (String × String)) :
    List (Nat × String) :=
  targets.zipIdx.flatMap fun entry => (entry.1.started opcode field).map fun id => (entry.2, id)

/-- Whether a script has a body. -/
def scriptHasBody (targets : List Target) (script : Nat × String) : Bool :=
  (targets[script.1]?).any fun target => target.hasBody script.2

section

variable {targets : List Target} {opcode : String} {field : Option (String × String)}

theorem Host.matchingHats_eq (host : Host) (opcode : String) (field : Option (String × String)) :
    host.matchingHats opcode field =
      startedScripts (host.targets.map LiveTarget.data) opcode field := by
  unfold Host.matchingHats startedScripts Target.started
  rw [List.zipIdx_map, List.flatMap_map]
  refine List.flatMap_congr fun entry _ => ?_
  rw [List.map_map]
  rfl

theorem mem_startedScripts {script : Nat × String} :
    script ∈ startedScripts targets opcode field ↔
      ∃ target, targets[script.1]? = some target ∧ script.2 ∈ target.started opcode field := by
  obtain ⟨index, id⟩ := script
  simp only [startedScripts, List.mem_flatMap, List.mem_map, Prod.mk.injEq, Prod.exists]
  constructor
  · rintro ⟨target, _, mem, _, isStarted, rfl, rfl⟩
    exact ⟨target, List.mem_zipIdx_iff_getElem?.mp mem, isStarted⟩
  · rintro ⟨target, found, isStarted⟩
    exact ⟨target, index, List.mem_zipIdx_iff_getElem?.mpr found, id, isStarted, rfl, rfl⟩

theorem nodup_startedScripts (distinct : ∀ target ∈ targets, target.blocks.keys.Nodup) :
    (startedScripts targets opcode field).Nodup := by
  refine List.nodup_flatMap.mpr ⟨fun entry mem => ?_, ?_⟩
  · have inTargets := List.fst_mem_of_mem_zipIdx mem
    exact (Target.nodup_started (distinct _ inTargets) opcode field).map (Prod.mk_right_injective _)
  · have places : (targets.zipIdx.map Prod.snd).Nodup := by
      rw [List.zipIdx_map_snd]
      exact List.nodup_range'
    refine (List.pairwise_map.mp places).imp fun other => ?_
    rintro script first second
    obtain ⟨_, -, rfl⟩ := List.mem_map.mp first
    obtain ⟨_, -, same⟩ := List.mem_map.mp second
    exact other (Prod.mk.inj same).1.symm

/-- The scripts with a body, target by target. -/
theorem filter_startedScripts :
    (startedScripts targets opcode field).filter (scriptHasBody targets) =
      targets.zipIdx.flatMap fun entry =>
        ((entry.1.started opcode field).filter entry.1.hasBody).map fun id => (entry.2, id) := by
  unfold startedScripts
  rw [List.filter_flatMap]
  refine List.flatMap_congr fun entry mem => ?_
  have found := List.mem_zipIdx_iff_getElem?.mp mem
  rw [List.filter_map]
  congr 1
  exact List.filter_congr fun id _ => by simp [scriptHasBody, found]

/-- If the targets start the same scripts with a body, so do the programs. -/
theorem filter_startedScripts_congr {others : List Target}
    (same : List.Forall₂ (fun target other : Target => (target.started opcode field).filter target.hasBody =
      (other.started opcode field).filter other.hasBody) targets others) :
    (startedScripts targets opcode field).filter (scriptHasBody targets) =
      (startedScripts others opcode field).filter (scriptHasBody others) := by
  rw [filter_startedScripts, filter_startedScripts]
  generalize 0 = first
  induction same generalizing first with
  | nil => rfl
  | cons here _ ih => rw [List.zipIdx_cons, List.zipIdx_cons, List.flatMap_cons, List.flatMap_cons, here, ih]

end

/-! ## The first turn -/

section

variable {foreign : Foreign} {depth : Nat} {turn : Turn} {frame : Frame} {rest : List Frame}
  {marker parent text : String} {support later : Support} {routine : Routine}

/-- The interpreter meets a marker: the step code is attached, and the tick is given up. -/
theorem interpretStep?_marker (frames : turn.thread.frames = frame :: rest) (pc : frame.pc = some marker)
    (found : turn.host.block? turn.thread.target marker = some (.marker parent text))
    (registered : turn.host.extensions.get? supportExtension = some .support)
    (isSupport : turn.host.support = some support)
    (loaded : { support with entered := true }.markerRoutine
      (turn.host.targetName turn.thread.target) marker text = .ok (routine, later)) :
    interpretStep? foreign depth turn = some
      (⟨{ turn.host with support := some later },
        { turn.thread with
          status := .yielded
          compiled := some ⟨none, [Activation.enter routine (.ofList (routine.params.map fun name =>
            (name, (turn.thread.param? name).getD .empty))) turn.thread.inWarp]⟩ }⟩, false) := by
  obtain ⟨host, id, target, topBlock, status, _, compiled⟩ := turn
  obtain rfl : _ = frame :: rest := frames
  have entered : (enterMarker text).run.run ⟨⟨host, ⟨id, target, topBlock, status, frame :: rest,
      compiled⟩⟩, .block marker, frame.state, .none⟩ = _ := enterMarker_attaches rfl isSupport loaded
  have performs : (dispatch foreign markerOpcode (.ofList [(markerInput, .text text)])).perform
      (.block marker) frame.state _ = _ := (perform_marker registered _ _ _).trans entered
  exact interpretStep?_of_runs rfl pc
    (runBlockAt_of_performs found (readArgs_marker foreign depth parent text _) performs)

/-- A script without a body is over after its hat. -/
theorem take?_bodyless {limits : Limits} {host : Host} {id index : Nat} {top : String} {hat : Block}
    (found : host.block? index top = some hat) (passes : hat.Passes) (noBody : hat.next = none)
    (enough : 2 ≤ limits.steps) :
    Turn.take? foreign limits ⟨host, .start id index top⟩ =
      some ⟨host, (Thread.start id index top).retire⟩ := by
  obtain ⟨steps, isSteps⟩ := Nat.exists_eq_add_of_le' enough
  have first : interpretStep? foreign limits.depth ⟨host, .start id index top⟩ = _ :=
    interpretStep?_of_passes passes rfl rfl rfl found
  change interpret? foreign limits.depth limits.steps _ = _
  rw [isSteps, interpret?, if_neg (by simp [Thread.start]), first, noBody]
  rfl

/-- In its first turn a script with a marker passes its hat and attaches the step code. -/
theorem take?_marker {limits : Limits} {host : Host} {id index : Nat} {top : String} {hat : Block}
    (found : host.block? index top = some hat) (passes : hat.Passes) (behind : hat.next = some marker)
    (planted : host.block? index marker = some (.marker top text))
    (registered : host.extensions.get? supportExtension = some .support)
    (isSupport : host.support = some support)
    (loaded : { support with entered := true }.markerRoutine (host.targetName index) marker text =
      .ok (routine, later)) (noParams : routine.params = []) (enough : 2 ≤ limits.steps) :
    Turn.take? foreign limits ⟨host, .start id index top⟩ =
      some ⟨{ host with support := some later }, { Thread.start id index top with
        status := .yielded
        frames := [.start marker]
        compiled := some ⟨none, [.enter routine .empty false]⟩ }⟩ := by
  obtain ⟨steps, isSteps⟩ := Nat.exists_eq_add_of_le' enough
  have first : interpretStep? foreign limits.depth ⟨host, .start id index top⟩ = _ :=
    interpretStep?_of_passes passes rfl rfl rfl found
  have second : interpretStep? foreign limits.depth
      ⟨host, { Thread.start id index top with frames := [.start marker] }⟩ = _ :=
    interpretStep?_marker rfl rfl planted registered isSupport loaded
  change interpret? foreign limits.depth limits.steps _ = _
  rw [isSteps, interpret?, if_neg (by simp [Thread.start]), first, behind]
  change interpret? foreign limits.depth (steps + 1)
    ⟨host, { Thread.start id index top with frames := [.start marker] }⟩ = _
  rw [interpret?, if_neg (by simp [Thread.start]), second, noParams]
  rfl

end

/-! ## The first tick -/

/-- The host runs the targets and can enter their markers. -/
structure Host.Equipped (afters : List Target) (host : Host) : Prop where
  data : host.targets.map LiveTarget.data = afters
  registered : host.extensions.get? supportExtension = some .support
  support : ∃ support, host.support = some support ∧
    ∀ after ∈ afters, support.Agrees (approvedHelpers Helper.shipped) after

/-- A new thread of a rebuilt program, before its first turn and after it.  The step code that it
has then is that of the script in the program it was rebuilt from. -/
inductive Begins (befores afters : List Target) : Thread → Thread → Prop
  | enters {id index : Nat} {top marker text : String} {before after : Target} {old hat : Block}
      {routine : Routine} (isBefore : befores[index]? = some before)
      (isAfter : afters[index]? = some after) (wasHat : before.block? top = some old)
      (found : after.block? top = some hat) (passed : old.Passes) (passes : hat.Passes)
      (behind : hat.next = some marker) (planted : after.block? marker = some (.marker top text))
      (loads : Routine.load text (approvedHelpers Helper.shipped) = .ok routine)
      (noParams : routine.params = [])
      (code : Code ⟨before, [], false⟩ routine old.next (routine.body Routine.entry)) :
      Begins befores afters (.start id index top) { Thread.start id index top with
        status := .yielded
        frames := [.start marker]
        compiled := some ⟨none, [.enter routine .empty false]⟩ }
  | ends {id index : Nat} {top : String} {after : Target} {hat : Block}
      (isAfter : afters[index]? = some after) (found : after.block? top = some hat)
      (passes : hat.Passes) (noBody : hat.next = none) :
      Begins befores afters (.start id index top) (Thread.start id index top).retire

section

variable {befores afters : List Target} {host : Host} {thread next : Thread}
  {threads nexts : List Thread}

namespace Host.Equipped

theorem block? (equipped : host.Equipped afters) {index : Nat} {after : Target}
    (isAfter : afters[index]? = some after) (id : String) :
    host.block? index id = after.block? id := by
  rw [Host.block?_eq, equipped.data, isAfter, Option.bind_some]

theorem targetName (equipped : host.Equipped afters) {index : Nat} {after : Target}
    (isAfter : afters[index]? = some after) : host.targetName index = after.name := by
  rw [← equipped.data, List.getElem?_map] at isAfter
  obtain ⟨live, isLive, rfl⟩ := Option.map_eq_some_iff.mp isAfter
  simp [Host.targetName, isLive]

theorem withSupport (equipped : host.Equipped afters) {support : Support}
    (agrees : ∀ after ∈ afters, support.Agrees (approvedHelpers Helper.shipped) after) :
    { host with support := some support }.Equipped afters :=
  ⟨equipped.data, equipped.registered, support, rfl, agrees⟩

end Host.Equipped

theorem Begins.wake_eq (begins : Begins befores afters thread next) : thread.wake = thread := by
  cases begins <;> rfl

/-- The first turn of a thread changes nothing of the host but its support. -/
theorem Begins.exists_take? (begins : Begins befores afters thread next) (foreign : Foreign)
    (alone : ∀ after ∈ afters, ∀ other ∈ afters, other.name = after.name → other = after)
    (equipped : host.Equipped afters) :
    ∃ support, { host with support := some support }.Equipped afters ∧
      ∀ limits : Limits, 2 ≤ limits.steps →
        Turn.take? foreign limits ⟨host, thread⟩ = some ⟨{ host with support := some support }, next⟩ := by
  obtain ⟨support, isSupport, agrees⟩ := equipped.support
  cases begins with
  | ends isAfter found passes noBody =>
      have same : { host with support := some support } = host := by rw [← isSupport]
      refine ⟨support, equipped.withSupport agrees, fun limits enough => ?_⟩
      rw [same]
      exact take?_bodyless ((equipped.block? isAfter _).trans found) passes noBody enough
  | @enters id index top marker text before after old hat routine isBefore isAfter wasHat found passed
      passes behind planted loads noParams code =>
      have entered : ∀ after ∈ afters, { support with entered := true }.Agrees
          (approvedHelpers Helper.shipped) after := fun after mem =>
        ⟨(agrees after mem).sameHelpers, (agrees after mem).markers, (agrees after mem).missing,
          (agrees after mem).present⟩
      have mem := List.mem_of_getElem? isAfter
      have carries : after.Carries marker text := ⟨_, planted, rfl⟩
      obtain ⟨later, loaded⟩ := (entered after mem).exists_markerRoutine carries loads
      refine ⟨later, equipped.withSupport fun other isOther => ?_, fun limits enough => ?_⟩
      · exact (entered other isOther).markerRoutine (alone other isOther after mem)
          (fun _ again => carries.eq again ▸ rfl) loaded
      rw [← equipped.targetName isAfter] at loaded
      exact take?_marker ((equipped.block? isAfter _).trans found) passes behind
        ((equipped.block? isAfter _).trans planted) equipped.registered isSupport loaded noParams enough

/-- The turns of the first tick, by induction on the threads. -/
theorem Host.Equipped.exists_turns (equipped : host.Equipped afters) (foreign : Foreign)
    (alone : ∀ after ∈ afters, ∀ other ∈ afters, other.name = after.name → other = after)
    (noStops : host.stops = []) (begins : List.Forall₂ (Begins befores afters) threads nexts) :
    ∃ support, { host with support := some support }.Equipped afters ∧
      ∀ (limits : Limits) (passed : List Thread), 2 ≤ limits.steps →
        (List.range' passed.length threads.length).foldlM (Host.stepAt? foreign limits)
          (host, passed ++ threads) = some ({ host with support := some support }, passed ++ nexts) := by
  induction begins generalizing host with
  | nil =>
      obtain ⟨support, isSupport, agrees⟩ := equipped.support
      have same : { host with support := some support } = host := by rw [← isSupport]
      exact ⟨support, equipped.withSupport agrees, fun limits passed _ => by rw [same]; rfl⟩
  | @cons thread next threads nexts here _ ih =>
      obtain ⟨support, still, takes⟩ := here.exists_take? foreign alone equipped
      obtain ⟨later, last, follow⟩ := ih still noStops
      refine ⟨later, last, fun limits passed enough => ?_⟩
      have goesOn : thread.isDone = false := by cases here <;> rfl
      rw [List.length_cons, List.range'_succ, List.foldlM_cons, Host.stepAt?_middle,
        if_neg (by simp [goesOn]), takes limits enough]
      have rest := follow limits (passed ++ [next]) enough
      rw [List.append_assoc, List.append_assoc, List.length_append] at rest
      have noMore : { host with support := some support }.stops = [] := noStops
      simpa [carryOutStops_none noMore] using rest

/-- The first tick of a rebuilt program. -/
theorem Host.Equipped.exists_tick? (equipped : host.Equipped afters) (foreign : Foreign)
    (alone : ∀ after ∈ afters, ∀ other ∈ afters, other.name = after.name → other = after)
    (noStops : host.stops = []) (still : host.drift = [])
    (begins : List.Forall₂ (Begins befores afters) host.threads nexts) :
    ∃ support, { host with support := some support }.Equipped afters ∧
      ∀ limits : Limits, 2 ≤ limits.steps → host.tick? foreign limits = some { host with
        ticks := host.ticks + 1
        tickStarted := host.now
        support := some support
        threads := nexts.filter fun thread => !thread.isDone } := by
  have opened : host.opening.1.Equipped afters := ⟨equipped.data, equipped.registered, equipped.support⟩
  have woken : host.threads.map Thread.wake = host.threads := by
    generalize host.threads = threads at begins
    induction begins with
    | nil => rfl
    | cons here _ ih => rw [List.map_cons, ih, here.wake_eq]
  obtain ⟨support, last, turns⟩ := opened.exists_turns foreign alone noStops begins
  refine ⟨support, ⟨last.data, last.registered, last.support⟩, fun limits enough => ?_⟩
  have ran := turns limits [] enough
  rw [List.length_nil, ← List.range_eq_range', List.nil_append, List.nil_append] at ran
  have isOpening : host.opening = (host.opening.1, host.threads) := congrArg (Prod.mk _) woken
  rw [← isOpening] at ran
  rw [Host.tick?_of_turns ran, ← remaining_nil, Host.opening, Host.readClock_of_still still]

/-! ## Pairs after the first tick -/

namespace Begins

theorem id_eq (begins : Begins befores afters thread next) : next.id = thread.id := by
  cases begins <;> rfl

theorem script_eq (begins : Begins befores afters thread next) : next.script = thread.script := by
  cases begins <;> rfl

/-- The threads of scripts with a body are those that go on. -/
theorem hasBody_eq (begins : Begins befores afters thread next) :
    scriptHasBody afters next.script = !next.isDone := by
  cases begins with
  | @enters id index top marker text before after old hat routine isBefore isAfter wasHat found passed
      passes behind planted loads noParams code =>
      have isTarget : afters[index]? = some after := isAfter
      simp [scriptHasBody, Target.hasBody, Thread.script, Thread.start, Thread.isDone, isTarget, found, behind]
  | @ends id index top after hat isAfter found passes noBody =>
      have isTarget : afters[index]? = some after := isAfter
      simp [scriptHasBody, Target.hasBody, Thread.script, Thread.start, Thread.isDone, Thread.retire, isTarget,
        found, noBody]

/-- The thread of a compiled script follows the interpreted thread of the same script. -/
theorem pair {world : World} {left : Thread} (begins : Begins world.befores world.afters thread next)
    (goesOn : next.isDone = false) (isStart : left = .start left.id left.target left.topBlock)
    (same : next.script = left.script) (id : next.id = world.rename left.id) :
    world.Pair left next := by
  obtain ⟨sameTarget, sameTop⟩ := Prod.mk.inj same
  refine ⟨id, sameTarget, sameTop, .inl ?_⟩
  cases begins with
  | ends => cases goesOn
  | @enters id index top marker text before after old hat routine isBefore isAfter wasHat found passed
      passes behind planted loads noParams code =>
      obtain rfl : index = left.target := sameTarget
      obtain rfl : top = left.topBlock := sameTop
      have stack : Stack before .ready ⟨before, [], false⟩
          [{ Frame.start left.topBlock with pc := old.next, state := .fresh }]
          (.enter routine .empty false) [] :=
        .hat (.ready rfl ⟨_, [], (List.append_nil _).symm, code, rfl⟩) rfl rfl rfl ⟨rfl, rfl, rfl⟩ rfl
      rw [isStart]
      refine ⟨by simp [Thread.start], by simp, rfl, ?_, _, before, rfl, isBefore,
        .entering rfl wasHat passed stack⟩
      refine ⟨.start marker, marker, .marker left.topBlock text, rfl, rfl, ?_, rfl⟩
      change (world.afters[left.target]?).bind _ = _
      rw [isAfter]
      exact planted

end Begins

/-- The threads that go on after the first tick are those of the scripts with a body. -/
theorem map_script_filter (begins : List.Forall₂ (Begins befores afters) threads nexts) :
    (nexts.filter fun thread => !thread.isDone).map Thread.script =
      (threads.map Thread.script).filter (scriptHasBody afters) := by
  induction begins with
  | nil => rfl
  | @cons thread next _ _ here _ ih =>
      have hasBody := here.hasBody_eq
      rw [here.script_eq] at hasBody
      cases isDone : next.isDone with
      | true => simp [isDone, ih, hasBody]
      | false => simp [isDone, ih, hasBody, here.script_eq]

/-- Distinct ids are renamed to other distinct ids by a renaming of all ids. -/
theorem exists_rename {ids others : List Nat} (distinct : ids.Nodup) (otherDistinct : others.Nodup)
    (sameLength : ids.length = others.length) :
    ∃ rename : Equiv.Perm Nat, ids.map rename = others := by
  induction ids generalizing others with
  | nil => exact ⟨1, (List.length_eq_zero_iff.mp sameLength.symm).symm⟩
  | cons id ids ih =>
      cases others with
      | nil => cases sameLength
      | cons other others =>
          obtain ⟨absent, distinctRest⟩ := List.nodup_cons.mp distinct
          obtain ⟨otherAbsent, otherRest⟩ := List.nodup_cons.mp otherDistinct
          obtain ⟨rename, rfl⟩ := ih distinctRest otherRest (Nat.succ.inj sameLength)
          -- The renaming of the rest, with the new id sent to the other one.
          refine ⟨rename.trans (Equiv.swap (rename id) other), ?_⟩
          rw [List.map_cons, Equiv.trans_apply, Equiv.swap_apply_left]
          congr 1
          refine List.map_congr_left fun later mem => ?_
          have notFirst : rename later ≠ rename id := fun same =>
            absent (rename.injective same ▸ mem)
          have notOther : rename later ≠ other := fun same =>
            otherAbsent (same ▸ List.mem_map_of_mem mem)
          rw [Equiv.trans_apply, Equiv.swap_apply_of_ne_of_ne notFirst notOther]

/-- Threads that are left out have no counterpart. -/
theorem World.Aligned.of_filter {world : World} {keep : Thread → Bool} {lefts rights : List Thread}
    (idle : ∀ thread ∈ lefts, keep thread = false → world.Idle thread)
    (pairs : List.Forall₂ world.Pair (lefts.filter keep) rights) :
    world.Aligned world.Idle lefts rights := by
  induction lefts generalizing rights with
  | nil =>
      cases pairs
      exact .nil
  | cons thread lefts ih =>
      have later := fun other mem => idle other (List.mem_cons_of_mem thread mem)
      cases kept : keep thread with
      | true =>
          rw [List.filter_cons_of_pos kept] at pairs
          cases pairs with
          | cons pair pairs => exact .pair pair (ih later pairs)
      | false =>
          rw [List.filter_cons_of_neg (by simp [kept])] at pairs
          exact .alone (idle thread (List.mem_cons_self ..) kept) (ih later pairs)

end

/-! ## Beginning abreast -/

section

variable {newId : List String → String} {settings : Settings} {befores afters : List Target}
  {opcode : String} {field : Option (String × String)}

/-- Every script that an event starts in a rebuilt program begins with a marker or is over at once. -/
theorem exists_begins (fresh : ∀ used, newId used ∉ used)
    (simulable : ∀ before ∈ befores, before.Simulable)
    (pairs : List.Forall₂ (fun before after => ∃ results,
      Target.Rebuilt newId settings before results after) befores afters)
    (isEvent : opcode ∈ hatOpcodes) {script : Nat × String}
    (mem : script ∈ startedScripts afters opcode field) (id : Nat) :
    ∃ next, Begins befores afters (.start id script.1 script.2) next := by
  obtain ⟨after, isAfter, isStarted⟩ := mem_startedScripts.mp mem
  obtain ⟨before, isBefore, results, rebuilt⟩ := exists_of_getElem?_right pairs isAfter
  obtain ⟨linked, plain, full, numbers⟩ := simulable before (List.mem_of_getElem? isBefore)
  obtain ⟨hat, found, started⟩ := Target.mem_started rebuilt.nodup_keys isStarted
  have passes : hat.Passes := rebuilt.passes plain found (Host.isEntry_of_startsOn isEvent started).1
  cases behind : hat.next with
  | none => exact ⟨_, .ends isAfter found passes behind⟩
  | some marker =>
      have starts : after.starts opcode field script.2 = true :=
        Target.starts_iff.mpr ⟨hat, found, started, by simp [behind]⟩
      rw [rebuilt.starts_eq fresh linked isEvent] at starts
      obtain ⟨old, wasHat, wasStarted, -⟩ := Target.starts_iff.mp starts
      obtain ⟨isHat, topLevel⟩ := Host.isEntry_of_startsOn isEvent wasStarted
      obtain ⟨-, -, -, x, y, moved⟩ := rebuilt.exists_moved_hat fresh linked wasHat isHat topLevel
      obtain rfl := Option.some.inj (found.symm.trans moved)
      obtain ⟨text, routine, planted, loads, noParams, -, code⟩ :=
        rebuilt.exists_marker fresh linked plain numbers full wasHat isHat topLevel behind
      exact ⟨_, .enters isBefore isAfter wasHat found (plain.passes wasHat (.inl isHat)) passes behind
        planted loads noParams code⟩

/-- All of them begin. -/
theorem exists_begin_all (fresh : ∀ used, newId used ∉ used)
    (simulable : ∀ before ∈ befores, before.Simulable)
    (pairs : List.Forall₂ (fun before after => ∃ results,
      Target.Rebuilt newId settings before results after) befores afters)
    (isEvent : opcode ∈ hatOpcodes) {threads : List Thread}
    (started : ∀ thread ∈ threads, thread = .start thread.id thread.target thread.topBlock ∧
      thread.script ∈ startedScripts afters opcode field) :
    ∃ nexts, List.Forall₂ (Begins befores afters) threads nexts := by
  induction threads with
  | nil => exact ⟨[], .nil⟩
  | cons thread threads ih =>
      obtain ⟨isStart, mem⟩ := started thread (List.mem_cons_self ..)
      obtain ⟨next, begins⟩ := exists_begins fresh simulable pairs isEvent mem thread.id
      obtain ⟨nexts, later⟩ := ih fun other mem => started other (List.mem_cons_of_mem _ mem)
      exact ⟨next :: nexts, .cons (isStart ▸ begins) later⟩

/-- An interpreted script without a body is left without a counterpart. -/
theorem World.idle_of_bodyless {world : World} (simulable : ∀ before ∈ world.befores, before.Simulable)
    (isEvent : opcode ∈ hatOpcodes) {thread : Thread}
    (isStart : thread = .start thread.id thread.target thread.topBlock)
    (mem : thread.script ∈ startedScripts world.befores opcode field)
    (noBody : scriptHasBody world.befores thread.script = false) : world.Idle thread := by
  obtain ⟨before, isBefore, isStarted⟩ := mem_startedScripts.mp mem
  obtain ⟨linked, plain, -, -⟩ := simulable before (List.mem_of_getElem? isBefore)
  obtain ⟨hat, found, started⟩ := Target.mem_started linked.distinct isStarted
  have passes : hat.Passes := plain.passes found (.inl (Host.isEntry_of_startsOn isEvent started).1)
  have ends : hat.next = none := by
    simpa [scriptHasBody, isBefore, Target.hasBody, found] using noBody
  rw [isStart]
  exact .inl ⟨by simp [Thread.start], rfl, _, thread.topBlock, hat, before, rfl, rfl, isBefore, found,
    passes, ends⟩

/-- An event on a host without threads starts all of its scripts. -/
theorem Host.startHats_eq {host : Host} (none : host.threads = [])
    (distinct : ∀ target ∈ host.targets.map LiveTarget.data, target.blocks.keys.Nodup) :
    ∃ nextThread, (host.startHats opcode field).1 = { host with
      threads := Thread.startAll host.nextThread
        (startedScripts (host.targets.map LiveTarget.data) opcode field)
      nextThread := nextThread } := by
  unfold Host.startHats
  rw [Host.matchingHats_eq]
  obtain ⟨threads, nextThread, same⟩ := host.startThreads_eq
    (startedScripts (host.targets.map LiveTarget.data) opcode field)
  have apart : ∀ thread ∈ host.threads, thread.script ∉
      startedScripts (host.targets.map LiveTarget.data) opcode field := by simp [none]
  have started := Host.threads_startThreads_of_distinct (nodup_startedScripts distinct) apart
  rw [same, none, List.nil_append] at started
  obtain rfl : threads = _ := started
  exact ⟨nextThread, same⟩

variable {source rebuilt : Project} {report : RebuildReport}

/-- A rebuilt program is loaded with support for its markers. -/
theorem Project.exists_equipped (done : source.precompile? newId settings = some (rebuilt, report)) :
    ∃ compiled, Host.load rebuilt true = .ok compiled ∧
      compiled.extensions.get? supportExtension = some .support ∧
      ∃ support, compiled.support = some support ∧
        ∀ after, support.Agrees (approvedHelpers Helper.shipped) after := by
  obtain ⟨compiled, loaded, isSupport⟩ := Host.load_precompiled done
  refine ⟨compiled, loaded, ?_, _, isSupport, fun after => Support.agrees_of_fresh⟩
  rcases Host.load_cases loaded with rfl | ⟨bootstrap, rfl⟩
  · cases isSupport
  · rw [Table.get?_insert, if_pos rfl]

/-- Calls in a rebuilt program are answered, and its targets are told apart. -/
theorem World.sound_of_rebuilt (fresh : ∀ used, newId used ∉ used)
    (done : source.precompile? newId settings = some (rebuilt, report))
    (names : (source.targets.map Target.name).Nodup)
    (simulable : ∀ before ∈ source.targets, before.Simulable) (shift : Nat) (rename : Equiv.Perm Nat) :
    World.Sound ⟨source.targets, rebuilt.targets, shift, rename⟩ where
  plain before mem := (simulable before mem).plain
  answers index before after isBefore isAfter := by
    obtain ⟨results, isRebuilt⟩ := Project.rebuilt_target done isBefore isAfter
    have fits := simulable before (List.mem_of_getElem? isBefore)
    exact isRebuilt.answers fresh fits.linked fits.plain fits.finite fits.compiles
  alone after mem other isOther same := by
    have distinct : (rebuilt.targets.map Target.name).Nodup := Project.map_name_rebuilt done ▸ names
    exact List.inj_on_of_nodup_map distinct isOther mem same
  renames := rename.injective

end

end StepCode
