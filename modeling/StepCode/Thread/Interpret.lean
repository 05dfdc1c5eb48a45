import StepCode.Operation.Dispatch

/-!
# The block interpreter

A thread runs block after block until it gives up the tick, ends or fails.  Before a block runs, the
reporters in its slots do.
-/

namespace StepCode

/-- Why a block did not get as far as its result. -/
inductive Fault where
  | failed (error : RunError)
  /-- Reporters are nested deeper than allowed for. -/
  | tooDeep

/-- Reading the slots of a block.  Effects before a fault remain. -/
abbrev Reading := ExceptT Fault (StateM Turn)

namespace Turn

/-- End the thread for an error and record it. -/
def fail (turn : Turn) (error : RunError) : Turn where
  host :=
    { turn.host with
      errors := turn.host.errors ++
        [⟨turn.host.targetName turn.thread.target, turn.thread.topBlock, error.message⟩] }
  thread := turn.thread.retire

def retire (turn : Turn) : Turn := { turn with thread := turn.thread.retire }

/-- Move the innermost frame to the next block of its chain. -/
def moveOn (turn : Turn) : Turn :=
  let next (id : String) : Option String :=
    (turn.host.block? turn.thread.target id).bind Block.next
  { turn with
    thread := turn.thread.mapFrame fun frame =>
      { frame with pc := frame.pc.bind next, state := .fresh } }

/-- An iteration is over.  Outside warp it ends the tick, in warp only if the tick is overdue.
Whether the thread goes on. -/
def iterationOver (turn : Turn) : Turn × Bool :=
  let endTick (turn : Turn) : Turn := { turn with thread := turn.thread.withStatus .yielded }
  if turn.thread.inWarp then
    let turn := turn.readClock
    if turn.host.isOverdue then (endTick turn, false) else (turn, true)
  else (endTick turn, false)

/-- Leave the innermost frame.  Whether the thread goes on. -/
def leaveFrame (turn : Turn) : Turn × Bool :=
  match turn.thread.frames with
  | [] => (turn.retire, false)
  | [_] => (turn.retire, false)
  | frame :: rest =>
      let turn := { turn with thread := { turn.thread with frames := rest } }
      if frame.isLoop then turn.iterationOver else (turn, true)

/-- The frames outside the innermost procedure; none if there is no procedure. -/
def callerFrames : List Frame → List Frame
  | [] => []
  | frame :: rest => if frame.params.isSome then rest else callerFrames rest

/-- Leave the innermost procedure, or end the script outside of one. -/
def leaveProcedure (turn : Turn) : Turn :=
  match callerFrames turn.thread.frames with
  | [] => turn.retire
  | frames => { turn with thread := { turn.thread with frames := frames } }

end Turn

/-- Slots that hold statements instead of values. -/
def holdsStatements (slot : String) : Bool :=
  Text.startsWith slot "SUBSTACK" || slot == "custom_block"

/-- Blocks whose fields are numbers. -/
def numberOpcodes : List String :=
  ["math_number", "math_positive_number", "math_whole_number", "math_integer", "math_angle"]

/-- A field as a value. -/
def fieldValue (block : Block) (name : String) : Value :=
  if numberOpcodes.contains block.opcode then
    ((block.field? name).map Value.numericLiteral).getD .empty
  else .text ((block.fieldText? name).getD "")

/-- A literal in a slot. -/
def literalValue (kind : Nat) (payload : List Json) (turn : Turn) : Value :=
  match payload with
  | [] => if LiteralKind.ofCode kind = .variable then turn.host.getVariable turn.thread.target ""
      else .empty
  | content :: _ =>
      match LiteralKind.ofCode kind with
      | .number => Value.numericLiteral content
      | .variable => turn.host.getVariable turn.thread.target (Value.ofJson content).toText
      | .list => .empty
      | .text => Value.ofJson content
      | .unknown => Value.ofJson content

/-- The arguments of a block, given how its slots are read: slots first, then fields. -/
def readArgs (slot : String → Reading Value) (block : Block) : Reading (Table Value) := do
  let names := block.inputs.keys.filter fun name => !holdsStatements name
  let slots ← names.mapM fun name => do return (name, ← slot name)
  let fields := block.fields.keys.map fun name => (name, fieldValue block name)
  return .ofList (slots ++ fields)

/-- Run a reporter.  All it asks for beyond its value is ignored. -/
def report (foreign : Foreign) (id : String) (opcode : String) (args : Table Value) :
    Reading Value := fun turn =>
  match (dispatch foreign opcode args).perform (.block id) .fresh turn with
  | (.error error, call) => (.error (.failed error), call.toTurn)
  | (.ok value, call) => (.ok value, call.toTurn)

/-- The value of a slot, given how a reporter in it is run. -/
def readSlotWith (run : String → Block → Reading Value) (block : Block) (slot : String) :
    Reading Value :=
  match block.input? slot with
  | none => return .empty
  | some .empty => return .empty
  | some (.literal kind payload) => return literalValue kind payload (← get)
  | some (.block id) => do
      let turn ← get
      match turn.host.block? turn.thread.target id with
      | none => throw (.failed (.missingBlock id))
      | some reporter => run id reporter

/-- The value of a reporter, with at most `depth` reporters nested in one another, itself included.
A call block reports nothing. -/
def readReporter (foreign : Foreign) : (depth : Nat) → (id : String) → Block → Reading Value
  | 0, _, _ => throw .tooDeep
  | depth + 1, id, reporter =>
      if reporter.opcode = callOpcode then return .empty
      else do
        let args ← readArgs (readSlotWith (readReporter foreign depth) reporter) reporter
        report foreign id reporter.opcode args

/-- The value of a slot, with at most `depth` reporters nested in it. -/
def readSlot (foreign : Foreign) (depth : Nat) : Block → (slot : String) → Reading Value :=
  readSlotWith (readReporter foreign depth)

/-- What the interpreter does after a block. -/
inductive Flow where
  | next
  /-- Nothing moves: the block runs again in a later tick, or the script has ended. -/
  | stay
  | branch (substack : Option String) (isLoop : Bool)
  | call (definition : String) (params : Table Value) (warp : Bool)
  /-- Leave the procedure, or the script outside of one. -/
  | leave

namespace Flow

/-- The slot of a branch. -/
def branchSlot (number : Nat) : String :=
  if number = 1 then "SUBSTACK" else s!"SUBSTACK{number}"

/-- A call: the definition of the procedure, and the arguments by parameter name. -/
def call? (turn : Turn) (block : Block) (args : Table Value) (proccode : String) :
    Option Flow := do
  let target ← turn.host.targets[turn.thread.target]?
  let (_, prototype) ← target.data.prototype? proccode
  let definition ← prototype.parent
  let mutation ← prototype.mutation
  let ids := (block.mutation.map Mutation.ids).getD []
  let values := ids.map fun id => (args.get? id).getD .empty
  return .call definition (.ofList (mutation.names.zip values)) mutation.isWarp

/-- What follows from the signals of a block; the first that applies counts.  A block without
signals is followed by the next one, in this tick or in another. -/
def ofSignals (turn : Turn) (block : Block) (args : Table Value) (signals : Signals) : Flow :=
  if turn.thread.isDone then .stay
  else if signals.stopScript then .leave
  else if signals.rerun then .stay
  else
    match signals.branch with
    | some (number, isLoop) => .branch (block.inputBlock? (branchSlot number)) isLoop
    | none => (signals.procedure.bind (call? turn block args)).getD .next

/-- Do what the flow says.  Whether the thread may go on. -/
def apply (turn : Turn) : Flow → Turn × Bool
  | .next => (turn.moveOn, true)
  | .stay => (turn, false)
  | .branch (some substack) isLoop =>
      let frame := { Frame.start substack with isLoop := isLoop, warp := turn.thread.inWarp }
      let turn := if isLoop then turn else turn.moveOn
      ({ turn with thread := turn.thread.push frame }, true)
  | .branch none true => turn.iterationOver
  | .branch none false => (turn.moveOn, true)
  | .call definition params warp =>
      let frame := { Frame.start definition with
        warp := warp || turn.thread.inWarp
        params := some params }
      let turn := turn.moveOn
      ({ turn with thread := turn.thread.push frame }, true)
  | .leave => (turn.leaveProcedure, true)

end Flow

/-- The state of the block that runs next. -/
def Thread.blockState (thread : Thread) : BlockState :=
  match thread.frames with
  | frame :: _ => frame.state
  | [] => .fresh

/-- Run the block `id`. -/
def runBlockAt (foreign : Foreign) (depth : Nat) (id : String) : Reading Flow := do
  let turn ← get
  match turn.host.block? turn.thread.target id with
  | none => throw (.failed (.missingBlock id))
  | some block =>
      let args ← readArgs (readSlot foreign depth block) block
      let turn ← get
      let (result, call) :=
        (dispatch foreign block.opcode args).perform (.block id) turn.thread.blockState turn
      let turn : Turn :=
        ⟨call.host, call.thread.mapFrame fun frame => { frame with state := call.state }⟩
      set turn
      match result with
      | .error error => throw (.failed error)
      | .ok _ => return Flow.ofSignals turn block args call.signals

/-- Run one block, or leave a chain at its end.  Whether the thread may go on; nothing if reporters
are nested too deep. -/
def interpretStep? (foreign : Foreign) (depth : Nat) (turn : Turn) : Option (Turn × Bool) :=
  match turn.thread.frames with
  | [] => some (turn.retire, false)
  | frame :: _ =>
      match frame.pc with
      | none => some turn.leaveFrame
      | some id =>
          match (runBlockAt foreign depth id).run.run turn with
          | (.ok flow, turn) => some (flow.apply turn)
          | (.error (.failed error), turn) => some (turn.fail error, false)
          | (.error .tooDeep, _) => none

/-- Run blocks until the thread gives up the tick, ends or fails; nothing if that takes more than
`fuel` steps, or reporters nested deeper than `depth`. -/
def interpret? (foreign : Foreign) (depth : Nat) : (fuel : Nat) → Turn → Option Turn
  | fuel, turn =>
      if turn.thread.status ≠ .running then some turn
      else
        match fuel with
        | 0 => none
        | fuel + 1 =>
            match interpretStep? foreign depth turn with
            | none => none
            | some (turn, false) => some turn
            | some (turn, true) => interpret? foreign depth fuel turn

end StepCode
