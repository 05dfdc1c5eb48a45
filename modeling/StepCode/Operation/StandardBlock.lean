import StepCode.Operation.Basic
import StepCode.Operation.Operator

/-!
# Built-in blocks

The blocks that the host knows without any extension, and what each of them does.
-/

namespace StepCode

inductive StandardBlock where
  /-- Hats and definitions do nothing themselves. -/
  | pass
  | call
  | setVariable
  | changeVariable
  | getVariable
  | say
  | wait
  | times
  | forever
  | ifTrue
  | ifElse
  | untilTrue
  | whileTrue
  | stop
  | broadcast
  /-- A parameter of the procedure, with the value it has outside of one. -/
  | param (outside : Value)
  | operator (op : Operator)
deriving Repr

namespace StandardBlock

def ofOpcode? (opcode : String) : Option StandardBlock :=
  if hatOpcodes.contains opcode then some .pass
  else
    match opcode with
    | "procedures_definition" => some .pass
    | "procedures_call" => some .call
    | "data_setvariableto" => some .setVariable
    | "data_changevariableby" => some .changeVariable
    | "data_variable" => some .getVariable
    | "looks_say" => some .say
    | "looks_think" => some .say
    | "control_wait" => some .wait
    | "control_repeat" => some .times
    | "control_forever" => some .forever
    | "control_if" => some .ifTrue
    | "control_if_else" => some .ifElse
    | "control_repeat_until" => some .untilTrue
    | "control_while" => some .whileTrue
    | "control_stop" => some .stop
    | "event_broadcast" => some .broadcast
    | "argument_reporter_string_number" => some (.param (.number 0.0))
    | "argument_reporter_boolean" => some (.param (.bool false))
    | "operator_add" => some (.operator .add)
    | "operator_subtract" => some (.operator .subtract)
    | "operator_multiply" => some (.operator .multiply)
    | "operator_divide" => some (.operator .divide)
    | "operator_mod" => some (.operator .mod)
    | "operator_lt" => some (.operator .lt)
    | "operator_gt" => some (.operator .gt)
    | "operator_equals" => some (.operator .equals)
    | "operator_and" => some (.operator .and)
    | "operator_or" => some (.operator .or)
    | "operator_not" => some (.operator .not)
    | "operator_join" => some (.operator .join)
    | "operator_length" => some (.operator .length)
    | "operator_letter_of" => some (.operator .letterOf)
    | "operator_contains" => some (.operator .contains)
    | "operator_round" => some (.operator .round)
    | "operator_mathop" => some (.operator .mathop)
    | "math_number" => some (.operator (.literal "NUM"))
    | "math_positive_number" => some (.operator (.literal "NUM"))
    | "math_whole_number" => some (.operator (.literal "NUM"))
    | "math_integer" => some (.operator (.literal "NUM"))
    | "math_angle" => some (.operator (.literal "NUM"))
    | "text" => some (.operator (.literal "TEXT"))
    | "colour_picker" => some (.operator (.literal "COLOUR"))
    | _ => none

/-- Iterations of a counted loop. -/
def iterations (count : Value) : Nat :=
  (Number.toInteger (Number.roundHalfUp count.toNumber)).toNat

/-- Whether the timer of a block has run out. -/
def timerFinished (now : Nat) (state : BlockState) : Bool :=
  match state.timer with
  | none => true
  | some started => Host.milliseconds (now - started) ≥ state.duration

/-- The first run starts the timer; each run before its end is followed by another. -/
def runWait (seconds : Float) : Operation Unit := do
  let state := (← get).state
  let now ← Operation.now
  match state.timer with
  | none =>
      let length := if seconds > 0.0 then seconds else 0.0
      Operation.modifyState fun state => { state with timer := some now, duration := length * 1000.0 }
      Operation.repeatNextTick
  | some _ => if !timerFinished now state then Operation.repeatNextTick

/-- The count is taken on the first run and kept for the others. -/
def runTimes (count : Value) : Operation Unit := do
  let left := (← get).state.counter.getD (iterations count)
  Operation.modifyState fun state => { state with counter := some (left - 1) }
  if 0 < left then Operation.enterBranch 1 true

def runStop (option : String) : Operation Unit := do
  match option with
  | "all" =>
      Operation.modifyHost (·.requestStop .all)
      Operation.modifyThread Thread.retire
  | "other scripts in sprite" => stopOthers
  | "other scripts in stage" => stopOthers
  | _ => Operation.leaveScript
where
  stopOthers : Operation Unit := do
    let thread := (← get).thread
    Operation.modifyHost (·.requestStop (.others thread.target thread.id))

/-- A call block says itself which procedure it calls. -/
def runCall : Operation Unit := do
  let call ← get
  let proccode := (← Operation.blockId?).bind fun id =>
    (call.host.block? call.thread.target id).bind Block.proccode?
  match proccode with
  | some proccode => Operation.enterProcedure proccode
  | none => throw (.unsupported .call)

/-- The receivers are started, and get a tick before the sender goes on. -/
def runBroadcast (message : String) : Operation Unit := do
  Operation.modifyHost fun host => (host.broadcast message).1
  Operation.endTick

def run (args : Table Value) (block : StandardBlock) : Operation Value := do
  let arg (name : String) : Value := (args.get? name).getD .empty
  match block with
  | .pass => return .empty
  | .call => runCall; return .empty
  | .setVariable =>
      Operation.setVariable (arg "VARIABLE").toText (arg "VALUE")
      return .empty
  | .changeVariable =>
      let name := (arg "VARIABLE").toText
      let current := (← Operation.getVariable name).toNumber
      Operation.setVariable name (.number (current + (arg "VALUE").toNumber))
      return .empty
  | .getVariable => Operation.getVariable (arg "VARIABLE").toText
  | .say =>
      let message := (arg "MESSAGE").toText
      modify fun call => { call with host := call.host.say call.thread.target message }
      return .empty
  | .wait => runWait (arg "DURATION").toNumber; return .empty
  | .times => runTimes (arg "TIMES"); return .empty
  | .forever => Operation.enterBranch 1 true; return .empty
  | .ifTrue =>
      if (arg "CONDITION").toBool then Operation.enterBranch 1 false
      return .empty
  | .ifElse =>
      Operation.enterBranch (if (arg "CONDITION").toBool then 1 else 2) false
      return .empty
  | .untilTrue =>
      if !(arg "CONDITION").toBool then Operation.enterBranch 1 true
      return .empty
  | .whileTrue =>
      if (arg "CONDITION").toBool then Operation.enterBranch 1 true
      return .empty
  | .stop => runStop (arg "STOP_OPTION").toText; return .empty
  | .broadcast => runBroadcast (arg "BROADCAST_INPUT").toText; return .empty
  | .param outside => return (← Operation.argument? (arg "VALUE").toText).getD outside
  | .operator op => return op.apply args

end StandardBlock

end StepCode
