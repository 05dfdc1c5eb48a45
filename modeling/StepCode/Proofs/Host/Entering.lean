import StepCode.Proofs.Host.Suspending
import StepCode.Proofs.Host.Undisturbed
import StepCode.Proofs.Routine.Keeping
import StepCode.Proofs.Simulation.Yields

/-!
# Entering markers

The interpreter reads the slots of a marker before it enters it, and finds there the text that a call
finds in the blocks, unless a field of the marker hides the slot.  Running blocks, whatever reporters
are in their slots, keeps the support in agreement with the program.
-/

namespace StepCode

/-! ## Hosts of a program -/

/-- The host runs the program, and its support agrees with it and has kept all that `base` had. -/
structure LoadedProgram.Hosts (program : LoadedProgram) (base : Support) (host : Host) : Prop where
  data : host.targets.map LiveTarget.data = program.targets
  registered : host.extensions.get? supportExtension = some .support
  /-- Only the markers' own extension enters compiled code. -/
  only : ∀ id, host.extensions.get? id = some .support → id = supportExtension
  support : ∃ support, host.support = some support ∧ base.Grows support ∧ program.Backs support

namespace LoadedProgram.Hosts

variable {program : LoadedProgram} {base : Support} {host : Host} {index : Nat} {target : Target}

theorem undisturbed {before after : Turn} (hosts : program.Hosts base before.host)
    (calm : before.Undisturbed after) : program.Hosts base after.host where
  data := calm.program.data.trans hosts.data
  registered := by rw [calm.extensions]; exact hosts.registered
  only := by rw [calm.extensions]; exact hosts.only
  support := by rw [calm.program.support]; exact hosts.support

/-- Another support that has kept what the host's support had. -/
theorem withSupport {support after : Support} (hosts : program.Hosts base host)
    (isSupport : host.support = some support) (grows : support.Grows after)
    (backs : program.Backs after) : program.Hosts base { host with support := some after } := by
  obtain ⟨_, same, grown, -⟩ := hosts.support
  obtain rfl := Option.some.inj (isSupport.symm.trans same)
  exact ⟨hosts.data, hosts.registered, hosts.only, after, rfl, grown.trans grows, backs⟩

theorem live (hosts : program.Hosts base host) (found : program.targets[index]? = some target) :
    ∃ live, host.targets[index]? = some live ∧ live.data = target := by
  rw [← hosts.data, List.getElem?_map] at found
  exact Option.map_eq_some_iff.mp found

theorem block? (hosts : program.Hosts base host) (found : program.targets[index]? = some target)
    (id : String) : host.block? index id = target.block? id := by
  obtain ⟨live, isLive, rfl⟩ := hosts.live found
  simp [Host.block?, isLive]

theorem targetName (hosts : program.Hosts base host)
    (found : program.targets[index]? = some target) : host.targetName index = target.name := by
  obtain ⟨live, isLive, rfl⟩ := hosts.live found
  simp [Host.targetName, isLive]

/-- Where a block is found there is a target. -/
theorem exists_target {id : String} {block : Block} (hosts : program.Hosts base host)
    (found : host.block? index id = some block) :
    ∃ target, program.targets[index]? = some target ∧ target.block? id = some block := by
  obtain ⟨live, isLive, isBlock⟩ := Option.bind_eq_some_iff.mp found
  exact ⟨live.data, by rw [← hosts.data, List.getElem?_map, isLive]; rfl, isBlock⟩

end LoadedProgram.Hosts

/-! ## Computations -/

/-- Whatever comes of the computation, what is `kept` still holds of its turn, and its value is
`good`. -/
def Upholds {σ ε α : Type} (turn : σ → Turn) (kept : Turn → Prop) (good : α → Prop)
    (act : ExceptT ε (StateM σ) α) (state : σ) : Prop :=
  kept (turn state) → kept (turn (act.run.run state).2) ∧
    ∀ value, (act.run.run state).1 = .ok value → good value

namespace Upholds

variable {σ ε α β : Type} {turn : σ → Turn} {kept : Turn → Prop} {good : α → Prop} {post : β → Prop}
  {state : σ}

theorem pure {value : α} (isGood : good value) :
    Upholds turn kept good (Pure.pure value : ExceptT ε (StateM σ) α) state :=
  fun held => ⟨held, by rintro _ ⟨⟩; exact isGood⟩

theorem throw {error : ε} :
    Upholds turn kept good (MonadExcept.throw error : ExceptT ε (StateM σ) α) state :=
  fun held => ⟨held, nofun⟩

theorem bind {act : ExceptT ε (StateM σ) α} {next : α → ExceptT ε (StateM σ) β}
    (first : Upholds turn kept good act state)
    (rest : ∀ value later, good value → Upholds turn kept post (next value) later) :
    Upholds turn kept post (act >>= next) state := by
  intro held
  obtain ⟨still, isGood⟩ := first held
  rw [ExceptT.run_bind, StateT.run_bind]
  generalize act.run.run state = result at still isGood
  obtain ⟨outcome, after⟩ := result
  cases outcome with
  | error error => exact ⟨still, nofun⟩
  | ok value => exact rest value after (isGood value rfl) still

theorem getThen {next : σ → ExceptT ε (StateM σ) β} (rest : Upholds turn kept post (next state) state) :
    Upholds turn kept post ((MonadState.get : ExceptT ε (StateM σ) σ) >>= next) state := rest

theorem mapM {f : α → ExceptT ε (StateM σ) β} {related : α → β → Prop} {items : List α}
    (each : ∀ item ∈ items, ∀ later, Upholds turn kept (related item) (f item) later) :
    Upholds turn kept (List.Forall₂ related items) (items.mapM f) state := by
  induction items generalizing state with
  | nil => exact .pure .nil
  | cons item rest ih =>
      rw [List.mapM_cons]
      refine .bind (each item (by simp) state) fun value later here => ?_
      exact .bind (ih fun other mem => each other (by simp [mem])) fun values _ there =>
        .pure (.cons here there)

theorem mono {act : ExceptT ε (StateM σ) α} {other : α → Prop}
    (upholds : Upholds turn kept good act state) (weaker : ∀ value, good value → other value) :
    Upholds turn kept other act state :=
  fun held => ⟨(upholds held).1, fun value isOk => weaker value ((upholds held).2 value isOk)⟩

end Upholds

/-! ## Blocks -/

/-- The blocks of foreign extensions leave the program and its support alone. -/
def Foreign.Calm (foreign : Foreign) : Prop :=
  ∀ extension opcode args call, StepCode.Calm Call.toTurn (foreign extension opcode args) call

/-- An opcode consists of its parts. -/
theorem toList_of_splitOpcode? {opcode extension inner : String}
    (isSplit : splitOpcode? opcode = some (extension, inner)) :
    opcode.toList = extension.toList ++ '_' :: inner.toList := by
  unfold splitOpcode? at isSplit
  dsimp only at isSplit
  split at isSplit
  next => cases isSplit
  next first rest dropped =>
    obtain ⟨rfl, rfl⟩ := Prod.mk.inj (Option.some.inj isSplit)
    have isFirst : first = '_' := by
      have stops := List.head?_dropWhile_not (· != '_') opcode.toList
      rw [dropped] at stops
      simpa using stops
    subst isFirst
    rw [String.toList_ofList, String.toList_ofList, ← dropped, List.takeWhile_append_dropWhile]

/-- The arguments hold the step code. -/
def HoldsCode (args : Table Value) (text : String) : Prop :=
  ((args.get? markerInput).map Value.toText).getD "" = text

section

variable {program : LoadedProgram} {base : Support} {foreign : Foreign} {index : Nat}
  {target : Target}

/-- A thread at its turn on a target of the program. -/
def LoadedProgram.At (program : LoadedProgram) (base : Support) (index : Nat) (turn : Turn) : Prop :=
  program.Hosts base turn.host ∧ turn.thread.target = index

theorem LoadedProgram.At.undisturbed {before after : Turn} (here : program.At base index before)
    (calm : before.Undisturbed after) : program.At base index after :=
  ⟨here.1.undisturbed calm, calm.target.trans here.2⟩

theorem Calm.upholds {σ ε α : Type} {turn : σ → Turn} {act : ExceptT ε (StateM σ) α} {state : σ}
    (calm : Calm turn act state) : Upholds turn (program.At base index) (fun _ => True) act state :=
  fun here => ⟨here.undisturbed calm, fun _ _ => trivial⟩

/-- That compiled code has been entered makes no difference to what is kept. -/
theorem LoadedProgram.Backs.entered {support : Support} (backs : program.Backs support) :
    program.Backs { support with entered := true } :=
  ⟨backs.helpers, backs.markers, backs.procedures⟩

/-- A marker that is entered with its own text keeps the support in agreement. -/
theorem enterMarker_upholds (distinct : program.Distinct)
    (found : program.targets[index]? = some target) {id text : String} (marks : target.Marks id text)
    {call : Call} (isBlock : call.site = .block id) :
    Upholds Call.toTurn (program.At base index) (fun _ => True) (enterMarker text) call := by
  rintro ⟨hosts, rfl⟩
  obtain ⟨support, isSupport, -, backs⟩ := hosts.support
  have isName : call.host.targetName call.thread.target = target.name := hosts.targetName found
  have grows : support.Grows { support with entered := true } :=
    ⟨rfl, fun _ _ kept => kept, fun _ _ kept => kept⟩
  rcases backs.entered.markerRoutine distinct (List.mem_of_getElem? found) marks with
    ⟨routine, after, -, entered, still, grown, -⟩ | ⟨error, -, failed⟩
  · rw [← isName] at entered
    rw [enterMarker_attaches isBlock isSupport entered]
    exact ⟨⟨hosts.withSupport isSupport (grows.trans grown) still, rfl⟩, fun _ _ => trivial⟩
  · rw [← isName] at failed
    rw [enterMarker_fails isBlock isSupport failed]
    exact ⟨⟨hosts.withSupport isSupport grows backs.entered, rfl⟩, fun _ _ => trivial⟩

/-- Running a block keeps the support in agreement, if a marker is run with its own text. -/
theorem dispatch_upholds (calm : foreign.Calm) (distinct : program.Distinct)
    (found : program.targets[index]? = some target) {id opcode : String} {args : Table Value}
    (own : opcode = markerOpcode → ∃ text, target.Marks id text ∧ HoldsCode args text)
    {call : Call} (isBlock : call.site = .block id) :
    Upholds Call.toTurn (program.At base index) (fun _ => True) (dispatch foreign opcode args) call := by
  unfold dispatch
  split
  next block _ => exact (block.run_calm).upholds
  next =>
    split
    next => exact .pure trivial
    next extension inner isSplit =>
      intro here
      refine Upholds.getThen ?_ here
      split
      next => exact .pure trivial
      next isSupport =>
        obtain rfl := here.1.only extension isSupport
        unfold supportCall
        split
        next isCompile =>
          have isMarker : opcode = markerOpcode := by
            apply String.toList_injective
            rw [toList_of_splitOpcode? isSplit, isCompile]
            decide
          obtain ⟨text, marks, rfl⟩ := own isMarker
          exact enterMarker_upholds distinct found marks isBlock
        next => exact .pure trivial
      next => exact (calm _ _ _ _).upholds

theorem perform_dispatch_at (calm : foreign.Calm) (distinct : program.Distinct)
    (found : program.targets[index]? = some target) {id opcode : String} {args : Table Value}
    (own : opcode = markerOpcode → ∃ text, target.Marks id text ∧ HoldsCode args text)
    (state : BlockState) {turn : Turn} (here : program.At base index turn) :
    program.At base index ((dispatch foreign opcode args).perform (.block id) state turn).2.toTurn :=
  have upholds : Upholds Call.toTurn (program.At base index) (fun _ => True)
      (dispatch foreign opcode args) ⟨turn, .block id, state, .none⟩ :=
    dispatch_upholds calm distinct found own rfl
  (upholds here).1

end

/-! ## Slots and fields -/

/-- What is read from a slot of the block, if it is the slot for step code. -/
def ShowsCode (target : Target) (block : Block) (slot : String) (value : Value) : Prop :=
  slot = markerInput → ∀ text, target.markerSource? block = some text → value = .text text

/-- What a text block reports. -/
def ShowsText (block : Block) (value : Value) : Prop :=
  block.opcode = "text" → ∀ text, block.fieldText? "TEXT" = some text → value = .text text

/-- Markers and text blocks find the text that they carry in their arguments. -/
structure Block.FindsText (target : Target) (block : Block) (args : Table Value) : Prop where
  code : markerInput ∉ block.fields.keys → ∀ text, target.markerSource? block = some text →
    HoldsCode args text
  field : block.opcode = "text" → ∀ text, block.fieldText? "TEXT" = some text →
    args.get? "TEXT" = some (.text text)

/-- A marker carries its text itself, or in a text block. -/
theorem Target.markerSource?_cases {target : Target} {block : Block} {text : String}
    (shown : target.markerSource? block = some text) :
    (∃ rest, block.input? markerInput = some (.literal textLiteral (.text text :: rest))) ∨
      ∃ inner shadow, block.input? markerInput = some (.block inner) ∧
        target.block? inner = some shadow ∧ shadow.opcode = "text" ∧
        shadow.fieldText? "TEXT" = some text := by
  unfold Target.markerSource? at shown
  split at shown
  next inline isInline =>
    obtain rfl := Option.some.inj shown
    unfold Block.inputText? at isInline
    split at isInline
    next kind payload rest isLiteral =>
      split at isInline
      next isText =>
        cases payload with
        | text s =>
            obtain rfl := Option.some.inj isInline
            exact .inl ⟨rest, isText ▸ isLiteral⟩
        | _ => cases isInline
      next => cases isInline
    next => cases isInline
  next =>
    simp only [Option.bind_eq_bind, Option.bind_eq_some_iff] at shown
    obtain ⟨inner, isInner, shadow, isShadow, shown⟩ := shown
    unfold Block.inputBlock? at isInner
    split at isInner
    next id isBlock =>
      obtain rfl := Option.some.inj isInner
      split at shown
      next isText => exact .inr ⟨id, shadow, isBlock, isShadow, isText, shown⟩
      next => cases shown
    next => cases isInner

theorem Target.mem_keys_of_markerSource? {target : Target} {block : Block} {text : String}
    (shown : target.markerSource? block = some text) : markerInput ∈ block.inputs.keys := by
  rcases target.markerSource?_cases shown with ⟨_, slot⟩ | ⟨_, _, slot, -⟩
  · exact Block.mem_keys_of_input? slot
  · exact Block.mem_keys_of_input? slot

/-- The arguments of a block are its slots and behind them its fields. -/
theorem Block.findsText {target : Target} {block : Block} {slots : List (String × Value)}
    (read : List.Forall₂ (fun name pair => pair.1 = name ∧ ShowsCode target block name pair.2)
      block.readSlots slots) :
    block.FindsText target
      (.ofList (slots ++ block.fields.keys.map fun name => (name, fieldValue block name))) where
  code := by
    intro noField text shown
    have isSlot : markerInput ∈ block.readSlots :=
      List.mem_filter.mpr ⟨target.mem_keys_of_markerSource? shown, by decide⟩
    have onlyText : ∀ value, (markerInput, value) ∈ slots → value = .text text := by
      intro value mem
      obtain ⟨name, -, isName, shows⟩ := exists_of_mem_right read mem
      exact shows isName.symm text shown
    obtain ⟨⟨_, value⟩, mem, rfl, -⟩ := exists_of_mem_right read.flip isSlot
    have found : (Table.ofList (slots ++
        block.fields.keys.map fun name => (name, fieldValue block name))).get? markerInput =
        some (.text text) := by
      refine Table.get?_insertAll_of_mem (List.mem_append_left _ (onlyText value mem ▸ mem)) ?_
      intro other isOther
      rcases List.mem_append.mp isOther with slot | field
      · exact onlyText other slot
      · obtain ⟨_, isField, same⟩ := List.mem_map.mp field
        obtain ⟨rfl, -⟩ := Prod.mk.inj same
        exact absurd isField noField
    rw [HoldsCode, found]
    rfl
  field := by
    intro isText text shown
    have isField : "TEXT" ∈ block.fields.keys := by
      obtain ⟨value, isValue, -⟩ := Option.map_eq_some_iff.mp shown
      unfold Block.field? at isValue
      split at isValue
      next items stored => exact Table.mem_keys_of_get? stored
      next => exact Table.mem_keys_of_get? isValue
    have isValue : fieldValue block "TEXT" = .text text := by
      have notNumber : numberOpcodes.contains block.opcode = false := by
        rw [isText]
        decide
      rw [fieldValue, notNumber, shown]
      rfl
    change (Table.empty.insertAll _).get? _ = _
    rw [Table.insertAll_append]
    refine Table.get?_insertAll_of_mem (List.mem_map.mpr ⟨"TEXT", isField, by rw [isValue]⟩) ?_
    intro other isOther
    obtain ⟨_, -, same⟩ := List.mem_map.mp isOther
    obtain ⟨rfl, rfl⟩ := Prod.mk.inj same
    exact isValue

/-- All markers of the target carry a text, and none has a field in the place of its slot. -/
def Target.MarkersCarryText (target : Target) : Prop :=
  ∀ id marker, target.block? id = some marker → marker.opcode = markerOpcode →
    markerInput ∉ marker.fields.keys ∧ ∃ text, target.markerSource? marker = some text

section

variable {program : LoadedProgram} {base : Support} {foreign : Foreign} {index : Nat}
  {target : Target}

/-- A marker that finds its text is run with its own text. -/
theorem Block.FindsText.own {id : String} {block : Block} {args : Table Value}
    (carry : target.MarkersCarryText) (isBlock : target.block? id = some block)
    (finds : block.FindsText target args) :
    block.opcode = markerOpcode → ∃ text, target.Marks id text ∧ HoldsCode args text := by
  intro isMarker
  obtain ⟨noField, text, shown⟩ := carry id block isBlock isMarker
  exact ⟨text, ⟨block, isBlock, isMarker, shown⟩, finds.code noField text shown⟩

theorem readArgs_upholds {slot : String → Reading Value} {block : Block} {turn : Turn}
    (slots : ∀ name later,
      Upholds id (program.At base index) (ShowsCode target block name) (slot name) later) :
    Upholds id (program.At base index) (block.FindsText target) (readArgs slot block) turn := by
  refine .bind (.mapM fun name _ later => ?_) fun values _ read => .pure (Block.findsText read)
  exact .bind (slots name later) fun value _ shows => .pure ⟨rfl, shows⟩

/-- The text in a slot for step code is read, whether the slot holds it or a text block does. -/
theorem readSlotWith_upholds (found : program.targets[index]? = some target)
    {run : String → Block → Reading Value} {block : Block} {slot : String} {turn : Turn}
    (runs : ∀ inner reporter, target.block? inner = some reporter → ∀ later,
      Upholds id (program.At base index) (ShowsText reporter) (run inner reporter) later) :
    Upholds id (program.At base index) (ShowsCode target block slot) (readSlotWith run block slot)
      turn := by
  unfold readSlotWith
  split
  next isNone =>
    refine .pure ?_
    rintro rfl text shown
    rcases target.markerSource?_cases shown with ⟨_, stored⟩ | ⟨_, _, stored, -⟩
    · rw [isNone] at stored
      cases stored
    · rw [isNone] at stored
      cases stored
  next isEmpty =>
    refine .pure ?_
    rintro rfl text shown
    rcases target.markerSource?_cases shown with ⟨_, stored⟩ | ⟨_, _, stored, -⟩
    · rw [isEmpty] at stored
      cases stored
    · rw [isEmpty] at stored
      cases stored
  next kind payload isLiteral =>
    refine .getThen (.pure ?_)
    rintro rfl text shown
    rcases target.markerSource?_cases shown with ⟨rest, stored⟩ | ⟨_, _, stored, -⟩
    · rw [isLiteral] at stored
      obtain ⟨rfl, rfl⟩ := Input.literal.inj (Option.some.inj stored)
      rfl
    · rw [isLiteral] at stored
      cases stored
  next inner isInner =>
    refine .getThen fun here => ?_
    have isSame : turn.host.block? turn.thread.target inner = target.block? inner := by
      obtain ⟨hosts, isIndex⟩ := here
      exact hosts.block? (isIndex ▸ found) inner
    rw [isSame]
    cases isReporter : target.block? inner with
    | none => exact Upholds.throw here
    | some reporter =>
        refine (runs inner reporter isReporter turn).mono (fun value shows => ?_) here
        rintro rfl text shown
        rcases target.markerSource?_cases shown with ⟨_, stored⟩ | ⟨id, shadow, stored, isShadow, isText, field⟩
        · rw [isInner] at stored
          cases stored
        · rw [isInner] at stored
          obtain rfl := Input.block.inj (Option.some.inj stored)
          obtain rfl := Option.some.inj (isReporter.symm.trans isShadow)
          exact shows isText text field

/-- Running a reporter keeps the support in agreement, and a text block reports its text. -/
theorem report_upholds (calm : foreign.Calm) (distinct : program.Distinct)
    (found : program.targets[index]? = some target) (carry : target.MarkersCarryText)
    {inner : String} {reporter : Block} (isReporter : target.block? inner = some reporter)
    {args : Table Value} (finds : reporter.FindsText target args) {turn : Turn} :
    Upholds id (program.At base index) (ShowsText reporter)
      (report foreign inner reporter.opcode args) turn := by
  intro (here : program.At base index turn)
  have performed : program.At base index _ :=
    perform_dispatch_at calm distinct found (finds.own carry isReporter) .fresh here
  change program.At base index (report foreign inner reporter.opcode args turn).2 ∧
    ∀ value, (report foreign inner reporter.opcode args turn).1 = .ok value → ShowsText reporter value
  constructor
  · unfold report
    split
    next ran => rwa [ran] at performed
    next ran => rwa [ran] at performed
  · intro value isValue isText text field
    have isLiteral : dispatch foreign reporter.opcode args =
        StandardBlock.run args (.operator (.literal "TEXT")) := by
      rw [isText]
      rfl
    rw [report, isLiteral] at isValue
    obtain rfl : (args.get? "TEXT").getD .empty = value := Except.ok.inj isValue
    rw [finds.field isText text field]
    rfl

/-- Reading a reporter keeps the support in agreement, however deep reporters are nested. -/
theorem readReporter_upholds (calm : foreign.Calm) (distinct : program.Distinct)
    (found : program.targets[index]? = some target) (carry : target.MarkersCarryText) (depth : Nat)
    (inner : String) (reporter : Block) (isReporter : target.block? inner = some reporter)
    (turn : Turn) :
    Upholds id (program.At base index) (ShowsText reporter) (readReporter foreign depth inner reporter)
      turn := by
  induction depth generalizing inner reporter turn with
  | zero => exact .throw
  | succ depth ih =>
      unfold readReporter
      split
      next isCall =>
        refine .pure fun isText => ?_
        rw [isCall] at isText
        exact absurd isText (by decide)
      next =>
        refine .bind (readArgs_upholds fun slot later => readSlotWith_upholds found ih) ?_
        exact fun args later finds => report_upholds calm distinct found carry isReporter finds

/-- The slots of a block are read without the support getting out of agreement, and markers find the
text that they carry. -/
theorem readBlock_upholds (calm : foreign.Calm) (distinct : program.Distinct)
    (found : program.targets[index]? = some target) (carry : target.MarkersCarryText) (depth : Nat)
    (block : Block) (turn : Turn) :
    Upholds id (program.At base index) (block.FindsText target)
      (readArgs (readSlot foreign depth block) block) turn :=
  readArgs_upholds fun _ _ =>
    readSlotWith_upholds found (readReporter_upholds calm distinct found carry depth)

/-- Running a block of the program keeps the support in agreement. -/
theorem runBlockAt_upholds (calm : foreign.Calm) (distinct : program.Distinct)
    (carry : ∀ target ∈ program.targets, target.MarkersCarryText) {depth : Nat} {name : String}
    {turn : Turn} (hosts : program.Hosts base turn.host) :
    program.Hosts base ((runBlockAt foreign depth name).run.run turn).2.host := by
  suffices Upholds id (program.At base turn.thread.target) (fun _ => True)
      (runBlockAt foreign depth name) turn from (this ⟨hosts, rfl⟩).1.1
  unfold runBlockAt
  refine .getThen ?_
  split
  next => exact .throw
  next block isBlock =>
    obtain ⟨target, found, isHere⟩ := hosts.exists_target isBlock
    have carries := carry target (List.mem_of_getElem? found)
    refine .bind (readBlock_upholds calm distinct found carries depth block turn) ?_
    intro args later finds
    refine .getThen fun (here : program.At base turn.thread.target later) => ?_
    have performed : program.At base turn.thread.target _ :=
      perform_dispatch_at calm distinct found (finds.own carries isHere) later.thread.blockState here
    generalize (dispatch foreign block.opcode args).perform (.block name) later.thread.blockState later
      = result at performed ⊢
    obtain ⟨outcome, call⟩ := result
    have still := performed.undisturbed
      (.mapFrame call.toTurn fun frame => { frame with state := call.state })
    cases outcome with
    | error error => exact ⟨still, fun _ _ => trivial⟩
    | ok value => exact ⟨still, fun _ _ => trivial⟩

end

end StepCode
