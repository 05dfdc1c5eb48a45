import StepCode.Operation.Dispatch

/-!
# Evaluating step code

Expressions are evaluated at once, from left to right.  Helpers may call each other, but only so
deep: `helperLimit` helper bodies may be open at a time.
-/

namespace StepCode

/-- Helper bodies that may be open at a time. -/
def helperLimit : Nat := 64

/-- The value of an operator, given those of its operands.  The operators that may leave out an operand
are not strict and have no rule here; neither has the one that reads the clock. -/
def Builtin.apply (operands : List Value) : Builtin → Value :=
  let operand (index : Nat) : Value := (operands[index]?).getD .empty
  let number (index : Nat) : Float := (operand index).toNumber
  fun
    | .add => .number (number 0 + number 1)
    | .sub => .number (number 0 - number 1)
    | .mul => .number (number 0 * number 1)
    | .div => .number (number 0 / number 1)
    | .rem => .number (Number.remainder (number 0) (number 1))
    | .lt => .bool (number 0 < number 1)
    | .gt => .bool (number 0 > number 1)
    | .le => .bool (number 0 ≤ number 1)
    | .ge => .bool (number 0 ≥ number 1)
    | .same => .bool ((operand 0).same (operand 1))
    | .notSame => .bool (!(operand 0).same (operand 1))
    | .not => .bool (!(operand 0).toBool)
    | .join => .text (String.join (operands.map Value.toText))
    | .lower => .text (Text.lower (operand 0).toText)
    | .str => .text (operand 0).toText
    | .len => .number (Float.ofNat (operand 0).toText.length)
    | .cmp =>
        .number (match (operand 0).compare (operand 1) with
          | .lt => -1.0
          | .eq => 0.0
          | .gt => 1.0)
    | .num => .number (number 0)
    | .numeric => .bool (operand 0).isNumeric
    | .floor => .number (Number.floor (number 0))
    | .abs => .number (number 0).abs
    | .round => .number (Number.roundHalfUp (number 0))
    | .elapsed => .empty
    | .and => .empty
    | .or => .empty

/-- What a block came to when compiled code ran it. -/
structure Completion where
  /-- Whether it need not run again. -/
  finished : Bool
  value : Value
  state : BlockState

/-- Run a block for compiled code. -/
def runBlock (foreign : Foreign) (opcode : String) (args : Table Value) (state : BlockState) :
    Act Completion := fun turn =>
  match (dispatch foreign opcode args).perform .compiled state turn with
  | (.error error, call) => (.error error, call.toTurn)
  | (.ok value, call) => (.ok ⟨!call.signals.rerun, value, call.state⟩, call.toTurn)

/-- The value that a block reports is final: that it gave up the tick counts for nothing. -/
def reportBlock (foreign : Foreign) (opcode : String) (args : Table Value) : Act Value := do
  let completion ← runBlock foreign opcode args .fresh
  modify fun turn => { turn with thread := turn.thread.wake }
  return completion.value

/-- How the body of a helper is evaluated; nothing where no helper may be entered any more. -/
abbrev Inner := Option (Table Value → Expr → Act Value)

mutual

/-- The value of an expression, given how helper bodies are evaluated. -/
def evalWith (foreign : Foreign) (routine : Routine) (inner : Inner) (params : Table Value) :
    Expr → Act Value
  | .number x => return .number x
  | .text s => return .text s
  | .bool b => return .bool b
  | .var name => do
      let turn ← get
      return turn.host.getVariable turn.thread.target name
  | .param name => return (params.get? name).getD .empty
  | .helper name args =>
      match routine.helpers.get? name, inner with
      | none, _ => throw (.unknownHelper name)
      | some _, none => throw (.helperDepth name)
      | some helper, some enter => do
          let values ← evalFirst foreign routine inner params helper.params.length args
          enter (bindParams helper.params values) helper.body
  | .report opcode args => do
      let values ← evalArgs foreign routine inner params args
      reportBlock foreign opcode (.ofList values)
  | .choose cond yes no => do
      if (← evalWith foreign routine inner params cond).toBool then
        evalWith foreign routine inner params yes
      else evalWith foreign routine inner params no
  | .builtin op args => do
      match op with
      | .and =>
          if (← evalOperand foreign routine inner params 0 args).toBool then
            return .bool (← evalOperand foreign routine inner params 1 args).toBool
          else return .bool false
      | .or =>
          if (← evalOperand foreign routine inner params 0 args).toBool then return .bool true
          else return .bool (← evalOperand foreign routine inner params 1 args).toBool
      | .elapsed =>
          let _ ← evalList foreign routine inner params args
          return .number (← Act.elapsed)
      | op => return op.apply (← evalList foreign routine inner params args)

def evalList (foreign : Foreign) (routine : Routine) (inner : Inner) (params : Table Value) :
    List Expr → Act (List Value)
  | [] => return []
  | arg :: rest => do
      let value ← evalWith foreign routine inner params arg
      let values ← evalList foreign routine inner params rest
      return value :: values

/-- The values of the first `count` arguments; what stands behind them is not evaluated. -/
def evalFirst (foreign : Foreign) (routine : Routine) (inner : Inner) (params : Table Value)
    (count : Nat) : List Expr → Act (List Value)
  | [] => return []
  | arg :: rest =>
      match count with
      | 0 => return []
      | count + 1 => do
          let value ← evalWith foreign routine inner params arg
          let values ← evalFirst foreign routine inner params count rest
          return value :: values

/-- The value of one operand; empty if there is none. -/
def evalOperand (foreign : Foreign) (routine : Routine) (inner : Inner) (params : Table Value)
    (index : Nat) : List Expr → Act Value
  | [] => return .empty
  | arg :: rest =>
      match index with
      | 0 => evalWith foreign routine inner params arg
      | index + 1 => evalOperand foreign routine inner params index rest

def evalArgs (foreign : Foreign) (routine : Routine) (inner : Inner) (params : Table Value) :
    List (String × Expr) → Act (List (String × Value))
  | [] => return []
  | (name, arg) :: rest => do
      let value ← evalWith foreign routine inner params arg
      let values ← evalArgs foreign routine inner params rest
      return (name, value) :: values

end

/-- How helper bodies are evaluated if `room` more may be entered. -/
def innerEval (foreign : Foreign) (routine : Routine) : (room : Nat) → Inner
  | 0 => none
  | room + 1 => some (evalWith foreign routine (innerEval foreign routine room))

/-- The value of an expression of a routine. -/
def eval (foreign : Foreign) (routine : Routine) (params : Table Value) (expr : Expr) : Act Value :=
  evalWith foreign routine (innerEval foreign routine helperLimit) params expr

/-- The named arguments of a block. -/
def evalNamed (foreign : Foreign) (routine : Routine) (params : Table Value)
    (args : List (String × Expr)) : Act (Table Value) := do
  return .ofList (← evalArgs foreign routine (innerEval foreign routine helperLimit) params args)

end StepCode
