import Mathlib.Logic.Relation
import StepCode.Proofs.Host.Entering
import StepCode.Proofs.Host.Reachable

/-!
# Keeping routines makes no difference

While a program runs, calls are looked up and markers are entered in any order.  Each is answered as the
blocks say, as if nothing had been kept, and what has once been kept stays.
-/

namespace StepCode

/-! ## What happens while a program runs -/

/-- What may happen from one moment of a run to another. -/
inductive Turn.Happens (foreign : Foreign) (turn : Turn) : Turn → Prop
  /-- Compiled code looks up a call. -/
  | call (signature : String) : Happens foreign turn ((Sequence.resolve signature).run.run turn).2
  /-- The interpreter runs a block, perhaps a marker, with the reporters in its slots. -/
  | block (depth : Nat) (id : String) : Happens foreign turn ((runBlockAt foreign depth id).run.run turn).2
  /-- Something else happens that leaves the program and its support alone, or it is the turn of another
  thread, perhaps on another target. -/
  | other {after : Turn} (program : turn.host.SameProgram after.host)
      (extensions : after.host.extensions = turn.host.extensions) : Happens foreign turn after

/-- A call on the target is answered as its blocks say, and what is answered is then kept, also for the
marker.  A call that cannot be answered leaves everything as it is. -/
def Turn.AnswersCalls (turn : Turn) (helpers : Table Helper) (target : Target) : Prop :=
  ∀ signature,
    match target.lookUp helpers signature with
    | .ok procedure => ∃ before after, turn.host.support = some before ∧
        (Sequence.resolve signature).run.run turn =
          (.ok procedure, { turn with host := { turn.host with support := some after } }) ∧
        before.Grows after ∧
        after.procedures.get? (target.name, proccodeOf signature) = some procedure ∧
        after.Shares target (proccodeOf signature) procedure
    | .error error => (Sequence.resolve signature).run.run turn = (.error (.load error), turn)

/-- The interpreter runs a marker of the target with what it reads from its slots: the routine that is
entered is loaded from the text of the marker, and is then kept for it.  A marker whose text cannot be
loaded leaves what is kept as it is. -/
def Turn.EntersMarkers (turn : Turn) (foreign : Foreign) (helpers : Table Helper) (target : Target) :
    Prop :=
  ∀ depth id marker text, target.block? id = some marker → marker.opcode = markerOpcode →
    target.markerSource? marker = some text → ∀ args middle,
      (readArgs (readSlot foreign depth marker) marker).run.run turn = (.ok args, middle) → ∀ state,
        ∃ before after call, middle.host.support = some before ∧ call.host.support = some after ∧
          match Routine.load text helpers with
          | .ok routine =>
              (dispatch foreign marker.opcode args).perform (.block id) state middle =
                  (.ok .empty, call) ∧
                before.Grows after ∧ after.markers.get? (target.name, id) = some routine ∧
                ∃ params, call.thread.compiled =
                  some ⟨none, [.enter routine params middle.thread.inWarp]⟩
          | .error error =>
              (dispatch foreign marker.opcode args).perform (.block id) state middle =
                  (.error (.load error), call) ∧
                after.markers = before.markers ∧ after.procedures = before.procedures

section

variable {program : LoadedProgram} {base : Support} {foreign : Foreign} {turn after : Turn}
  {target : Target}

/-- A call is looked up in the support that the host has. -/
theorem Sequence.run_resolve {support : Support} {live : LiveTarget} (signature : String)
    (isSupport : turn.host.support = some support)
    (isLive : turn.host.targets[turn.thread.target]? = some live) :
    (resolve signature).run.run turn =
      match support.resolve live.data signature with
      | .error error => (.error (.load error), turn)
      | .ok (procedure, later) =>
          (.ok procedure, { turn with host := { turn.host with support := some later } }) := by
  have seen : Yields (ε := RunError) get turn turn := rfl
  unfold resolve
  rw [seen.run_bind]
  simp only [isSupport, isLive]
  cases support.resolve live.data signature with
  | error error => rfl
  | ok result => rfl

theorem LoadedProgram.Hosts.resolve (hosts : program.Hosts base turn.host)
    (distinct : program.Distinct) (signature : String) :
    program.Hosts base ((Sequence.resolve signature).run.run turn).2.host := by
  obtain ⟨support, isSupport, -, backs⟩ := hosts.support
  cases isLive : turn.host.targets[turn.thread.target]? with
  | none =>
      have nothing : (Sequence.resolve signature).run.run turn = (.error (.missingBlock signature), turn) := by
        have seen : Yields (ε := RunError) get turn turn := rfl
        unfold Sequence.resolve
        rw [seen.run_bind]
        simp only [isSupport, isLive]
        rfl
      rw [nothing]
      exact hosts
  | some live =>
      have found : program.targets[turn.thread.target]? = some live.data := by
        rw [← hosts.data, List.getElem?_map, isLive]
        rfl
      rw [Sequence.run_resolve signature isSupport isLive]
      rcases backs.resolve distinct (List.mem_of_getElem? found) with
        ⟨procedure, later, -, resolved, still, grows, -⟩ | ⟨error, -, failed⟩
      · rw [resolved]
        exact hosts.withSupport isSupport grows still
      · rw [failed]
        exact hosts

/-- Whatever happens while the program runs, its support agrees with it, and keeps what it has. -/
theorem LoadedProgram.Hosts.of_happens (hosts : program.Hosts base turn.host) (calm : foreign.Calm)
    (distinct : program.Distinct) (carry : ∀ target ∈ program.targets, target.MarkersCarryText)
    (happens : turn.Happens foreign after) : program.Hosts base after.host := by
  cases happens with
  | call signature => exact hosts.resolve distinct signature
  | block depth id => exact runBlockAt_upholds calm distinct carry hosts
  | other same extensions =>
      exact ⟨same.data.trans hosts.data, by rw [extensions]; exact hosts.registered,
        by rw [extensions]; exact hosts.only, by rw [same.support]; exact hosts.support⟩

theorem LoadedProgram.Hosts.of_run (hosts : program.Hosts base turn.host) (calm : foreign.Calm)
    (distinct : program.Distinct) (carry : ∀ target ∈ program.targets, target.MarkersCarryText)
    (run : Relation.ReflTransGen (Turn.Happens foreign) turn after) :
    program.Hosts base after.host := by
  induction run with
  | refl => exact hosts
  | tail _ happens ih => exact ih.of_happens calm distinct carry happens

theorem answersCalls (hosts : program.Hosts base turn.host) (distinct : program.Distinct)
    (found : program.targets[turn.thread.target]? = some target) :
    turn.AnswersCalls program.helpers target := by
  intro signature
  obtain ⟨support, isSupport, -, backs⟩ := hosts.support
  obtain ⟨live, isLive, rfl⟩ := hosts.live found
  have ran := Sequence.run_resolve signature isSupport isLive
  rcases backs.resolve distinct (List.mem_of_getElem? found) with
    ⟨procedure, later, isFound, resolved, -, grows, kept, shares⟩ | ⟨error, isFound, failed⟩
  · rw [isFound]
    rw [resolved] at ran
    exact ⟨support, later, isSupport, ran, grows, kept, shares⟩
  · rw [isFound]
    rw [failed] at ran
    exact ran

/-- It makes no difference to what is looked up whether a call is made in warp mode. -/
theorem resolve_warp (hosts : program.Hosts base turn.host)
    (found : program.targets[turn.thread.target]? = some target) (bare : String) :
    (Sequence.resolve ("W" ++ bare)).run.run turn = (Sequence.resolve ("Z" ++ bare)).run.run turn := by
  obtain ⟨support, isSupport, -⟩ := hosts.support
  obtain ⟨live, isLive, rfl⟩ := hosts.live found
  have same : support.resolve live.data ("W" ++ bare) = support.resolve live.data ("Z" ++ bare) := by
    unfold Support.resolve
    rw [(proccodeOf_warp bare).1, (proccodeOf_warp bare).2]
  rw [Sequence.run_resolve _ isSupport isLive, Sequence.run_resolve _ isSupport isLive, same]

theorem entersMarkers (hosts : program.Hosts base turn.host) (calm : foreign.Calm)
    (distinct : program.Distinct) (found : program.targets[turn.thread.target]? = some target)
    (carries : target.MarkersCarryText) : turn.EntersMarkers foreign program.helpers target := by
  intro depth id marker text isBlock isMarker shown args middle read state
  have reading := readBlock_upholds calm distinct found carries depth marker turn ⟨hosts, rfl⟩
  rw [read] at reading
  obtain ⟨⟨still, isIndex⟩, finds⟩ := reading
  have holds : HoldsCode args text :=
    (finds args rfl).code (carries id marker isBlock isMarker).1 text shown
  obtain ⟨before, isBefore, -, backs⟩ := still.support
  have isName : middle.host.targetName middle.thread.target = target.name :=
    still.targetName (isIndex ▸ found)
  have entered : program.Backs { before with entered := true } := backs.entered
  have registered : middle.host.extensions.get? supportExtension = some .support := still.registered
  have performs : (dispatch foreign marker.opcode args).perform (.block id) state middle =
      (enterMarker text).perform (.block id) state middle := by
    rw [isMarker, perform_marker registered, show _ = text from holds]
  rcases entered.markerRoutine distinct (List.mem_of_getElem? found) ⟨marker, isBlock, isMarker, shown⟩
    with ⟨routine, after, loaded, enters, -, grows, kept⟩ | ⟨error, loaded, fails⟩
  · rw [← isName] at enters
    have attaches : (enterMarker text).run.run ⟨middle, .block id, state, .none⟩ = _ :=
      enterMarker_attaches rfl isBefore enters
    rw [loaded]
    exact ⟨before, after, _, isBefore, rfl, performs.trans attaches,
      ⟨grows.helpers, grows.markers, grows.procedures⟩, kept, _, rfl⟩
  · rw [← isName] at fails
    have failing : (enterMarker text).run.run ⟨middle, .block id, state, .none⟩ = _ :=
      enterMarker_fails rfl isBefore fails
    rw [loaded]
    exact ⟨before, { before with entered := true }, _, isBefore, rfl, performs.trans failing, rfl, rfl⟩

end

/-! ## Whole runs -/

/-- A program that brings support for compiled code is loaded with its targets and nothing kept. -/
theorem Host.hosts_of_load {project : Project} {unsandboxed : Bool} {host : Host} {fresh : Support}
    (loaded : Host.load project unsandboxed = .ok host) (isSupport : host.support = some fresh) :
    LoadedProgram.Hosts ⟨project.targets, fresh.helpers⟩ fresh host := by
  have isData := Host.data_of_load loaded
  rcases Host.load_cases loaded with rfl | ⟨bootstrap, rfl⟩
  · cases isSupport
  · obtain rfl := Option.some.inj isSupport
    refine ⟨isData, by rw [Table.get?_insert, if_pos rfl], fun id found => ?_,
      _, rfl, .refl _, LoadedProgram.backs_of_fresh⟩
    rw [Table.get?_insert] at found
    split at found
    next same => exact same
    next => cases found

/-- Keeping routines makes no difference.  Take a program whose targets have names of their own, and whose
markers carry their text in their slot or in a text block there, with no field in the place of the slot.
After any calls and any runs of blocks, markers among them, in any order and on any targets: every call is
answered as the blocks say and every marker enters what its text loads as; calls in warp mode, other calls
and the marker itself share what is kept; a call that fails leaves everything as it is, so it fails again
in the same way; and what has been kept is neither replaced nor removed. -/
theorem kept_routines_are_those_found_anew {project : Project} {unsandboxed : Bool} {foreign : Foreign}
    {start turn : Turn} {fresh : Support} (calm : foreign.Calm)
    (distinct : (project.targets.map Target.name).Nodup)
    (carry : ∀ target ∈ project.targets, target.MarkersCarryText)
    (loaded : Host.load project unsandboxed = .ok start.host)
    (isSupport : start.host.support = some fresh)
    (run : Relation.ReflTransGen (Turn.Happens foreign) start turn) :
    (∀ target, project.targets[turn.thread.target]? = some target →
      turn.AnswersCalls fresh.helpers target ∧ turn.EntersMarkers foreign fresh.helpers target ∧
      ∀ bare, (Sequence.resolve ("W" ++ bare)).run.run turn =
        (Sequence.resolve ("Z" ++ bare)).run.run turn) ∧
    ∃ support, turn.host.support = some support ∧
      ∀ later, Relation.ReflTransGen (Turn.Happens foreign) turn later →
        ∃ after, later.host.support = some after ∧ support.Grows after := by
  let program : LoadedProgram := ⟨project.targets, fresh.helpers⟩
  have hosts : program.Hosts fresh turn.host :=
    (Host.hosts_of_load loaded isSupport).of_run calm distinct carry run
  refine ⟨fun target found => ⟨answersCalls hosts distinct found, ?_, resolve_warp hosts found⟩, ?_⟩
  · exact entersMarkers hosts calm distinct found (carry target (List.mem_of_getElem? found))
  · obtain ⟨support, here, -, backs⟩ := hosts.support
    have again : program.Hosts support turn.host :=
      ⟨hosts.data, hosts.registered, hosts.only, support, here, .refl _, backs⟩
    refine ⟨support, here, fun later run => ?_⟩
    obtain ⟨after, isAfter, grows, -⟩ := (again.of_run calm distinct carry run).support
    exact ⟨after, isAfter, grows⟩

/-! ### A procedure with a marker -/

/-- The definition of a procedure, with a marker that carries the text and has these fields. -/
def markedTarget (text : String) (fields : Table Json) : Target where
  isStage := true
  name := "Stage"
  vars := .empty
  blocks := ⟨[
    ("d", .block { Block.bare definitionOpcode with
      next := some "m"
      inputs := ⟨[("custom_block", .array [.int 1, .text "p"])]⟩
      topLevel := true }),
    ("p", .block { Block.bare "procedures_prototype" with
      parent := some "d"
      mutation := some ⟨some "go", none, none, none, .empty⟩ }),
    ("m", .block { Block.marker "d" text with fields := fields })]⟩
  comments := .empty
  extra := .empty

def markedProgram (text : String) (fields : Table Json) : Project where
  targets := [markedTarget text fields]
  extensions := []
  extensionUrls :=
    Table.empty.insert supportExtension (Bootstrap.url (Bootstrap.document compilerHelpers "1" false))
  extra := .empty

/-- The program as it is loaded, with its support. -/
def markedHost (text : String) (fields : Table Json) (support : Support) : Host :=
  { Host.start (markedProgram text fields) with
    unsandboxed := true
    support := some support
    extensions := Table.empty.insert supportExtension .support }

theorem load_markedProgram (text : String) (fields : Table Json) :
    Host.load (markedProgram text fields) true =
      .ok (markedHost text fields (.ofBootstrap ⟨"1", Helper.shipped⟩)) := by
  have isUrl : (markedProgram text fields).extensionUrls.get? supportExtension =
      some (Bootstrap.url (Bootstrap.document compilerHelpers "1" false)) := by
    rw [markedProgram, Table.get?_insert, if_pos rfl]
  unfold Host.load
  dsimp only
  rw [isUrl]
  exact Host.install_document rfl "1" false

section

variable {text : String} {fields : Table Json}

/-- The only marker of the target. -/
theorem markedTarget_marker {id : String} {marker : Block}
    (isBlock : (markedTarget text fields).block? id = some marker)
    (isMarker : marker.opcode = markerOpcode) :
    marker = { Block.marker "d" text with fields := fields } := by
  have mem : (id, marker) ∈ [("d", _), ("p", _), ("m", _)] := Target.mem_blockList_of_block? isBlock
  simp only [List.mem_cons, List.not_mem_nil, or_false, Prod.mk.injEq] at mem
  rcases mem with ⟨-, rfl⟩ | ⟨-, rfl⟩ | ⟨-, rfl⟩
  · exact absurd isMarker (by decide)
  · exact absurd isMarker (by decide)
  · rfl

theorem markedTarget_shows :
    (markedTarget text fields).markerSource? { Block.marker "d" text with fields := fields } =
      some text := rfl

theorem procedureMarker?_markedTarget :
    (markedTarget text fields).procedureMarker? "go" = some ("m", text) := rfl

end

/-- A thread that has just been started at the marker. -/
def atMarkedStart (text : String) (fields : Table Json) (support : Support) : Turn :=
  ⟨markedHost text fields support, .start 0 0 "m"⟩

theorem idleForeign_calm : idleForeign.Calm := fun _ _ _ _ => .pure

/-- When the marker has been run, a call in warp mode runs the code of the marker. -/
theorem markedProgram_call : ∃ (text : String) (start turn after : Turn),
    Host.load (markedProgram text .empty) true = .ok start.host ∧
    Relation.ReflTransGen (Turn.Happens idleForeign) start turn ∧
    (Sequence.resolve "Wgo").run.run turn = (.ok (some yieldingRoutine), after) := by
  -- The text and the support are made variables, so that nothing unfolds them.
  obtain ⟨text, loads⟩ : ∃ text, ∀ table, Routine.load text table = .ok yieldingRoutine :=
    ⟨_, load_yieldingScript⟩
  obtain ⟨fresh, loaded⟩ : ∃ fresh, Host.load (markedProgram text .empty) true =
      .ok (atMarkedStart text .empty fresh).host := ⟨_, load_markedProgram text .empty⟩
  have carry : ∀ target ∈ (markedProgram text .empty).targets, target.MarkersCarryText := by
    intro target mem id marker isBlock isMarker
    obtain rfl := List.mem_singleton.mp mem
    obtain rfl := markedTarget_marker isBlock isMarker
    exact ⟨by simp [Table.keys, Table.empty], _, markedTarget_shows⟩
  -- The marker is run, and then it is the turn of a thread that stands where this one began.
  let later : Turn := ((runBlockAt idleForeign 1 "m").run.run (atMarkedStart text .empty fresh)).2
  have run : Relation.ReflTransGen (Turn.Happens idleForeign) (atMarkedStart text .empty fresh)
      ⟨later.host, (atMarkedStart text .empty fresh).thread⟩ :=
    .tail (.single (.block 1 "m")) (.other (.refl _) rfl)
  obtain ⟨answers, -⟩ := kept_routines_are_those_found_anew idleForeign_calm
    (by simp [markedProgram]) carry loaded rfl run
  have found : (markedTarget text .empty).lookUp fresh.helpers "Wgo" = .ok (some yieldingRoutine) := by
    have isProccode : proccodeOf "Wgo" = "go" := (proccodeOf_warp "go").1
    rw [Target.lookUp, isProccode, procedureMarker?_markedTarget]
    dsimp only
    rw [loads]
    rfl
  have answered := (answers (markedTarget text .empty) rfl).1 "Wgo"
  rw [found] at answered
  obtain ⟨_, _, -, isAnswer, -⟩ := answered
  exact ⟨text, _, _, _, loaded, run, isAnswer⟩

/-! ### A field in the place of the slot -/

/-- Give nothing back. -/
def returningScript : Script := ⟨[], [.ret none]⟩

def returningRoutine : Routine := ⟨returningScript, Routine.numbered returningScript.body, .empty, rfl⟩

theorem load_returningScript (table : Table Helper) :
    Routine.load returningScript.print table = .ok returningRoutine := by
  have wellFormed : StmtsWellFormed returningScript.body := ⟨trivial, trivial⟩
  exact Routine.load_helperless (Script.parse_print wellFormed) rfl table

/-- A field of the name of the slot. -/
def hidingFields (text : String) : Table Json := ⟨[(markerInput, .array [.text text, .null])]⟩

section

-- The texts and the support are variables, so that nothing unfolds the scripts and the helpers.
variable (text other : String) (support : Support)

/-- The support when the marker has been run. -/
def hidingSupport : Support :=
  { support with
    markers := support.markers.add ("Stage", "m") returningRoutine
    entered := true }

variable {text other support}

/-- A marker with such a field is entered with the text of the field. -/
theorem runBlockAt_hidden (fresh : support.markers = .empty)
    (loaded : Routine.load other support.helpers = .ok returningRoutine) :
    ∃ thread, ((runBlockAt idleForeign 1 "m").run.run
        (atMarkedStart text (hidingFields other) support)).2 =
      ⟨markedHost text (hidingFields other) (hidingSupport support), thread⟩ := by
  let marker : Block := { Block.marker "d" text with fields := hidingFields other }
  let start := atMarkedStart text (hidingFields other) support
  have isRoutine : { support with entered := true }.markerRoutine "Stage" "m" other =
      .ok (returningRoutine, hidingSupport support) := by
    have absent : { support with entered := true }.markers.get? ("Stage", "m") = none := by
      rw [fresh]
      rfl
    exact Support.markerRoutine_eq_ok.mpr (.inr ⟨absent, loaded, rfl⟩)
  have reads : Yields (readArgs (readSlot idleForeign 1 marker) marker) start
      (.ofList [(markerInput, .text text), (markerInput, .text other)]) := by
    have slots : marker.inputs.keys.filter (fun name => !holdsStatements name) = [markerInput] := by
      change [markerInput].filter (fun name => !holdsStatements name) = [markerInput]
      decide
    unfold Yields readArgs
    rw [slots]
    rfl
  have found : start.host.block? start.thread.target "m" = some marker := rfl
  let call : Call := ⟨start, .block "m", .fresh, .none⟩
  have entered : (enterMarker other).run.run call = _ := enterMarker_attaches rfl rfl isRoutine
  have performs : (dispatch idleForeign markerOpcode
      (.ofList [(markerInput, .text text), (markerInput, .text other)])).perform
      (.block "m") .fresh start = _ := entered
  rw [runBlockAt_of_performs found reads performs]
  exact ⟨_, rfl⟩

end

/-- A call that is new is answered with what has been kept for its marker. -/
theorem Support.resolve_of_kept {support : Support} {target : Target} {signature id text : String}
    {routine : Routine} (new : support.procedures.get? (target.name, proccodeOf signature) = none)
    (found : target.procedureMarker? (proccodeOf signature) = some (id, text))
    (kept : support.markers.get? (target.name, id) = some routine) :
    ∃ after, support.resolve target signature = .ok (some routine, after) := by
  have entered : support.markerRoutine target.name id text = .ok (routine, support) :=
    markerRoutine_eq_ok.mpr (.inl ⟨kept, rfl⟩)
  unfold resolve
  dsimp only
  rw [new, found]
  dsimp only
  rw [entered]
  exact ⟨_, rfl⟩

/-- When such a marker has been run, a call whose code would be found in the slot runs the code in the
field. -/
theorem resolve_hidden {text other : String} {fresh : Support}
    (hidden : Routine.load other fresh.helpers = .ok returningRoutine) (unkept : fresh.markers = .empty)
    (new : fresh.procedures = .empty) :
    ∃ turn after, Relation.ReflTransGen (Turn.Happens idleForeign)
        (atMarkedStart text (hidingFields other) fresh) turn ∧
      (markedProgram text (hidingFields other)).targets[turn.thread.target]? =
        some (markedTarget text (hidingFields other)) ∧
      (Sequence.resolve "go").run.run turn = (.ok (some returningRoutine), after) := by
  obtain ⟨thread, entered⟩ := runBlockAt_hidden unkept hidden
  have run : Relation.ReflTransGen (Turn.Happens idleForeign)
      (atMarkedStart text (hidingFields other) fresh)
      (atMarkedStart text (hidingFields other) (hidingSupport fresh)) := by
    refine .tail (.single (.block 1 "m")) (.other ?_ ?_)
    · rw [entered]
      exact .refl _
    · rw [entered]
      rfl
  obtain ⟨after, resolved⟩ : ∃ after, (hidingSupport fresh).resolve
      (markedTarget text (hidingFields other)) "go" = .ok (some returningRoutine, after) := by
    have isProccode : proccodeOf "go" = "go" := by decide
    refine Support.resolve_of_kept ?_ (isProccode ▸ procedureMarker?_markedTarget) ?_
    · rw [hidingSupport, new]
      rfl
    · rw [hidingSupport, unkept]
      rfl
  have answered : (Sequence.resolve "go").run.run
      (atMarkedStart text (hidingFields other) (hidingSupport fresh)) = _ :=
    Sequence.run_resolve "go" rfl rfl
  have isData : (LiveTarget.start (markedTarget text (hidingFields other))).data =
    markedTarget text (hidingFields other) := rfl
  rw [isData, resolved] at answered
  exact ⟨_, _, run, rfl, answered⟩

/-- It is not enough that all markers carry their text in the slot: a field in the place of the slot
hides it from the interpreter, but not from a call. -/
theorem fields_hide_the_text_of_markers :
    ¬ ∀ (project : Project) (start turn : Turn) (fresh : Support) (target : Target),
      (project.targets.map Target.name).Nodup →
      (∀ target ∈ project.targets, ∀ id marker, target.block? id = some marker →
        marker.opcode = markerOpcode → ∃ text, marker.inputText? markerInput = some text) →
      Host.load project true = .ok start.host → start.host.support = some fresh →
      Relation.ReflTransGen (Turn.Happens idleForeign) start turn →
      project.targets[turn.thread.target]? = some target → turn.AnswersCalls fresh.helpers target := by
  intro answers
  obtain ⟨text, loads⟩ : ∃ text, ∀ table, Routine.load text table = .ok yieldingRoutine :=
    ⟨_, load_yieldingScript⟩
  obtain ⟨other, hidden⟩ : ∃ other, ∀ table, Routine.load other table = .ok returningRoutine :=
    ⟨_, load_returningScript⟩
  obtain ⟨fresh, loaded, unkept, new⟩ : ∃ fresh, Host.load (markedProgram text (hidingFields other)) true =
      .ok (atMarkedStart text (hidingFields other) fresh).host ∧ fresh.markers = .empty ∧
      fresh.procedures = .empty := ⟨_, load_markedProgram text (hidingFields other), rfl, rfl⟩
  obtain ⟨turn, after, run, isTarget, hides⟩ := resolve_hidden (hidden fresh.helpers) unkept new
  have carry : ∀ target ∈ (markedProgram text (hidingFields other)).targets, ∀ id marker,
      target.block? id = some marker → marker.opcode = markerOpcode →
      ∃ text, marker.inputText? markerInput = some text := by
    intro target mem id marker isBlock isMarker
    obtain rfl := List.mem_singleton.mp mem
    obtain rfl := markedTarget_marker isBlock isMarker
    exact ⟨text, rfl⟩
  have answered := answers _ _ turn fresh _ (by simp [markedProgram]) carry loaded rfl run isTarget "go"
  have found : (markedTarget text (hidingFields other)).lookUp fresh.helpers "go" =
      .ok (some yieldingRoutine) := by
    have isProccode : proccodeOf "go" = "go" := by decide
    rw [Target.lookUp, isProccode, procedureMarker?_markedTarget]
    dsimp only
    rw [loads]
    rfl
  rw [found] at answered
  obtain ⟨_, _, -, isAnswer, -⟩ := answered
  rw [hides] at isAnswer
  have same := congrArg Routine.script (Option.some.inj (Except.ok.inj (Prod.mk.inj isAnswer).1))
  simp [returningRoutine, yieldingRoutine, returningScript, yieldingScript] at same

end StepCode
