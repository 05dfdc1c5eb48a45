import StepCode.Routine.Evaluate

/-!
# Running compiled code

One step runs one statement, one block, or the end of a body.  Steps follow each other until the code
is suspended, has ended, or is found to run on a thread that was ended meanwhile.
-/

namespace StepCode

/-- How a run of compiled code came to rest. -/
inductive Rest where
  /-- It goes on from here in a later tick. -/
  | suspended (sequence : Sequence)
  | ended (value : Value)
  /-- The thread was ended under it. -/
  | retired
deriving Repr

inductive Step where
  | more (sequence : Sequence)
  | rest (rest : Rest)
deriving Repr

/-- What code answers when it is resumed for one step. -/
inductive Response where
  | more (sequence : Sequence)
  /-- It breaks off here.  It does so at a yield, at a block that has to run again, behind a block that
  has given up the tick, and on a thread that was ended: the answer does not say which. -/
  | yield (sequence : Sequence)
  | done (value : Value)
deriving Repr

namespace Sequence

/-- A call has ended: go on with its caller, unless the thread was ended meanwhile. -/
def leave (value : Value) (callers : List Activation) : Act Response := do
  match callers with
  | [] => return .done value
  | callers =>
      if (← get).thread.isDone then return .yield ⟨none, callers⟩
      else return .more ⟨none, callers⟩

/-- Run the block that the code waits for.  If it has to run again, the thread is left running.  If it
is finished, the thread is left as the block left it. -/
def stepPending (foreign : Foreign) (op : PendingOp) (calls : List Activation) : Act Response := do
  let completion ← runBlock foreign op.opcode op.args op.state
  let turn ← get
  if turn.thread.isDone then return .yield ⟨none, calls⟩
  else if !completion.finished then
    set { turn with thread := turn.thread.withStatus .running }
    return .yield ⟨some { op with state := completion.state }, calls⟩
  else if turn.thread.status = .yielded then return .yield ⟨none, calls⟩
  else return .more ⟨none, calls⟩

/-- Whether a loop statement starts another iteration. -/
def loopsOn (foreign : Foreign) (call : Activation) : Option Instr → Act Bool
  | some (.forever _) => return true
  | some (.whileTrue cond _) => return (← eval foreign call.routine call.params cond).toBool
  | some (.untilTrue cond _) => return !(← eval foreign call.routine call.params cond).toBool
  | _ => return false

/-- Whether a body that has come to its end runs again, and what happens at its next end. -/
def again (foreign : Foreign) (call : Activation) : Rule → Act (Option Rule)
  | .once => return none
  | .times left => return if 0 < left then some (.times (left - 1)) else none
  | .recheck owner index => do
      let continued ← loopsOn foreign call (call.routine.instr? owner index)
      return if continued then some (.recheck owner index) else none

/-- Look up a procedure for a call. -/
def resolve (signature : String) : Act (Option Routine) := do
  let turn ← get
  match turn.host.support, turn.host.targets[turn.thread.target]? with
  | some support, some target =>
      match support.resolve target.data signature with
      | .error error => throw (.load error)
      | .ok (procedure, support) =>
          set { turn with host := { turn.host with support := some support } }
          return procedure
  | _, _ => throw (.missingBlock signature)

def inWarp (signature : String) : Bool := Text.startsWith signature "W"

/-- Whether a yield counts.  In warp mode the clock is asked. -/
def givesUp (warp : Bool) : Act Bool :=
  if warp then Act.isOverdue else return true

/-- Run a statement.  `call` stands behind it already; `index` is its place in the body `owner`. -/
def execute (foreign : Foreign) (call : Activation) (callers : List Activation)
    (owner index : Nat) (instr : Instr) : Act Response := do
  let value (expr : Expr) : Act Value := eval foreign call.routine call.params expr
  let goOn : Response := .more ⟨none, call :: callers⟩
  let enter (body : Nat) (rule : Rule) : Response :=
    .more ⟨none, { call with frames := ⟨body, 0, rule⟩ :: call.frames } :: callers⟩
  match instr with
  | .set var expr =>
      let value ← value expr
      modify fun turn => { turn with host := turn.host.setVariable turn.thread.target var value }
      return goOn
  | .change var amount =>
      let amount := (← value amount).toNumber
      modify fun turn =>
        let current := (turn.host.getVariable turn.thread.target var).toNumber
        { turn with
          host := turn.host.setVariable turn.thread.target var (.number (current + amount)) }
      return goOn
  | .op opcode args =>
      let args ← evalNamed foreign call.routine call.params args
      return .more ⟨some ⟨opcode, args, .fresh⟩, call :: callers⟩
  | .call signature args =>
      let values ← args.mapM value
      match ← resolve signature with
      | none => leave .empty (call :: callers)
      | some routine =>
          let callee := Activation.enter routine (bindParams routine.params values)
            (call.warp || inWarp signature)
          return .more ⟨none, callee :: call :: callers⟩
  | .yield => return if ← givesUp call.warp then .yield ⟨none, call :: callers⟩ else goOn
  | .times count body =>
      let count := StandardBlock.iterations (← value count)
      return if 0 < count then enter body (.times (count - 1)) else goOn
  | .forever body => return enter body (.recheck owner index)
  | .whileTrue cond body =>
      return if (← value cond).toBool then enter body (.recheck owner index) else goOn
  | .untilTrue cond body =>
      return if (← value cond).toBool then goOn else enter body (.recheck owner index)
  | .ifElse cond yes no =>
      return enter (if (← value cond).toBool then yes else no) .once
  | .ret none => leave .empty callers
  | .ret (some expr) => leave (← value expr) callers

/-- One step of the innermost call. -/
def stepCall (foreign : Foreign) (call : Activation) (callers : List Activation) : Act Response := do
  match call.frames with
  | [] => leave .empty callers
  | frame :: outer =>
      match call.routine.instr? frame.body frame.index with
      | some instr =>
          let call := { call with frames := { frame with index := frame.index + 1 } :: outer }
          execute foreign call callers frame.body frame.index instr
      | none =>
          match ← again foreign call frame.rule with
          | some rule =>
              return .more ⟨none, { call with frames := ⟨frame.body, 0, rule⟩ :: outer } :: callers⟩
          | none => return .more ⟨none, { call with frames := outer } :: callers⟩

/-- Resume code for one step. -/
def resume (foreign : Foreign) (sequence : Sequence) : Act Response :=
  match sequence.pending, sequence.calls with
  | some op, calls => stepPending foreign op calls
  | none, call :: callers => stepCall foreign call callers
  | none, [] => return .done .empty

/-- What a turn makes of the answer.  Where the code breaks off, the status of the thread tells why: if
a block has given up the tick and is finished, the thread is set running, and the code is resumed. -/
def heed : Response → Act Step
  | .more sequence => return .more sequence
  | .done value => return .rest (.ended value)
  | .yield sequence => do
      let turn ← get
      if turn.thread.isDone then return .rest .retired
      else if turn.thread.status = .yielded then
        set { turn with thread := turn.thread.withStatus .running }
        return .more sequence
      else return .rest (.suspended sequence)

def step (foreign : Foreign) (sequence : Sequence) : Act Step := do
  heed (← resume foreign sequence)

/-- Go on until the code comes to rest; nothing if that takes more than `fuel` steps. -/
def run? (foreign : Foreign) : (fuel : Nat) → Sequence → Turn → Option (Except RunError Rest × Turn)
  | 0, _, _ => none
  | fuel + 1, sequence, turn =>
      match (sequence.step foreign).run.run turn with
      | (.error error, turn) => some (.error error, turn)
      | (.ok (.rest rest), turn) => some (.ok rest, turn)
      | (.ok (.more sequence), turn) => run? foreign fuel sequence turn

end Sequence

end StepCode
