import StepCode.Project.Basic
import StepCode.Script.Basic
import StepCode.Text.Affix

/-!
# Lowering blocks to step code

The common statements and reporters have step code of their own; every other block becomes a call of
the block itself with its arguments.  Blocks are followed through the ids in their slots and links,
and a descriptor may hold any ids, so a block may be reached again while it is being lowered.  No
result exists then, and the outcome says so.
-/

namespace StepCode

/-- Why a script or procedure has no step code. -/
inductive Refusal where
  | dangling (id : String)
  | looping
  | unsupported (opcode : String)
  | callWithoutMutation
  | callWithoutSignature
  | noVariable (opcode : String)
  | listInput
  | unknownLiteral (kind : Nat)
  | noPrototype
deriving DecidableEq, Repr

def Refusal.message : Refusal → String
  | .dangling id => s!"dangling block reference `{id}`"
  | .looping => "statement chain loops back on itself"
  | .unsupported opcode => s!"unsupported C block `{opcode}`"
  | .callWithoutMutation => "procedure call without mutation"
  | .callWithoutSignature => "procedure call without signature"
  | .noVariable opcode => s!"`{opcode}` has no VARIABLE field"
  | .listInput => "list inputs are not supported"
  | .unknownLiteral kind => s!"unknown primitive kind {kind}"
  | .noPrototype => "procedure definition has no prototype"

namespace Lowering

/-- Why lowering has no result. -/
inductive Stop where
  | refused (reason : Refusal)
  /-- A block is nested in itself: following its slots never ends. -/
  | endless
deriving DecidableEq, Repr

abbrev Lowered := Except Stop

def refuse {α : Type} (reason : Refusal) : Lowered α := .error (.refused reason)

/-- Where a body stands: its target, the names of its parameters and whether it runs in warp. -/
structure Place where
  target : Target
  params : List String
  warp : Bool

namespace Place

variable (place : Place)

def block (id : String) : Lowered Block :=
  match place.target.block? id with
  | some found => .ok found
  | none => refuse (.dangling id)

/-- Warp is inherited: what a body in warp calls runs in warp too. -/
def callsInWarp (proccode : String) : Bool :=
  place.warp ||
    match place.target.prototype? proccode with
    | some (_, prototype) => (prototype.mutation.map Mutation.isWarp).getD false
    | none => false

/-- The pause at the end of every iteration.  In warp it is taken only when the tick is overdue. -/
def pause : Stmt :=
  if place.warp then .ifElse (.helper "is_stuck" []) [.yield] [] else .yield

end Place

/-- A literal of a numeric slot; text that spells no number stays text. -/
def numberLiteral (payload : Json) : Expr :=
  match Value.numericLiteral payload with
  | .number x => .number x
  | other => .text other.toText

def literal (kind : Nat) (payload : List Json) : Lowered Expr :=
  let content := payload.headD .null
  match LiteralKind.ofCode kind with
  | .number => .ok (numberLiteral content)
  | .text => .ok (.text content.plainText)
  | .variable => .ok (.var content.plainText)
  | .list => refuse .listInput
  | .unknown => refuse (.unknownLiteral kind)

def variableName (block : Block) : Lowered String :=
  match block.fieldText? "VARIABLE" with
  | some name => .ok name
  | none => refuse (.noVariable block.opcode)

/-- The slots in order, then the fields as texts. -/
def arguments (slot : String → Lowered Expr) (block : Block) : Lowered (List (String × Expr)) := do
  let slots ← block.inputs.keys.mapM fun name => do return (name, ← slot name)
  let fields := block.fields.keys.map fun name =>
    (name, Expr.text ((block.fieldText? name).getD ""))
  return slots ++ fields

/-- How a reporter is written in step code. -/
inductive ReporterForm where
  /-- A numeric literal. -/
  | number
  /-- A literal text, kept in a field. -/
  | text (field : String)
  /-- A parameter of the body, with the value it has where there is none of its name. -/
  | param (outside : Expr)
  | var
  | builtin (op : Builtin) (slots : List String)
  | helper (name : String) (slots : List String)
  /-- A call of the block itself. -/
  | block

def ReporterForm.ofOpcode : String → ReporterForm
  | "math_number" => .number
  | "math_positive_number" => .number
  | "math_whole_number" => .number
  | "math_integer" => .number
  | "math_angle" => .number
  | "text" => .text "TEXT"
  | "colour_picker" => .text "COLOUR"
  | "argument_reporter_string_number" => .param (.number 0.0)
  | "argument_reporter_boolean" => .param (.bool false)
  | "data_variable" => .var
  | "operator_add" => .builtin .add ["NUM1", "NUM2"]
  | "operator_subtract" => .builtin .sub ["NUM1", "NUM2"]
  | "operator_multiply" => .builtin .mul ["NUM1", "NUM2"]
  | "operator_divide" => .builtin .div ["NUM1", "NUM2"]
  | "operator_mod" => .helper "modulo" ["NUM1", "NUM2"]
  | "operator_lt" => .helper "less_than" ["OPERAND1", "OPERAND2"]
  | "operator_gt" => .helper "greater_than" ["OPERAND1", "OPERAND2"]
  | "operator_equals" => .helper "compare_equal" ["OPERAND1", "OPERAND2"]
  | "operator_and" => .builtin .and ["OPERAND1", "OPERAND2"]
  | "operator_or" => .builtin .or ["OPERAND1", "OPERAND2"]
  | "operator_not" => .builtin .not ["OPERAND"]
  | "operator_join" => .builtin .join ["STRING1", "STRING2"]
  | "operator_length" => .builtin .len ["STRING"]
  | "operator_round" => .builtin .round ["NUM"]
  | _ => .block

/-- The value of a reporter, given how its slots are lowered. -/
def reporter (place : Place) (slot : String → Lowered Expr) (block : Block) : Lowered Expr :=
  match ReporterForm.ofOpcode block.opcode with
  | .number =>
      match block.field? "NUM" with
      | some content => .ok (numberLiteral content)
      | none => .ok (.number 0.0)
  | .text field => .ok (.text ((block.fieldText? field).getD ""))
  | .param outside =>
      let name := (block.fieldText? "VALUE").getD ""
      .ok (if place.params.contains name then .param name else outside)
  | .var => do return .var (← variableName block)
  | .builtin op slots => do return .builtin op (← slots.mapM slot)
  | .helper name slots => do return .helper name (← slots.mapM slot)
  | .block => do return .report block.opcode (← arguments slot block)

/-- The value of a slot, given how a reporter is lowered. -/
def input (place : Place) (lower : Block → Lowered Expr) (block : Block) (name : String) :
    Lowered Expr :=
  match block.input? name with
  | none => .ok (.text "")
  | some .empty => .ok (.text "")
  | some (.literal kind payload) => literal kind payload
  | some (.block id) => do lower (← place.block id)

/-- Lower a reporter with at most `depth` blocks nested in one another, itself included. -/
def reported (place : Place) : (depth : Nat) → Block → Lowered Expr
  | 0, _ => .error .endless
  | depth + 1, block => reporter place (input place (reported place depth) block) block

def call (place : Place) (slot : String → Lowered Expr) (block : Block) : Lowered Stmt :=
  match block.mutation with
  | none => refuse .callWithoutMutation
  | some mutation =>
      match mutation.proccode with
      | none => refuse .callWithoutSignature
      | some proccode => do
          let args ← mutation.ids.mapM slot
          return .call ((if place.callsInWarp proccode then "W" else "Z") ++ proccode) args

/-- How a statement is written in step code. -/
inductive StatementForm where
  | set
  | change
  | times
  | forever
  | untilTrue
  | whileTrue
  | branches
  | stop
  | call
  /-- A call of the block itself. -/
  | block
deriving DecidableEq, Repr

def StatementForm.ofOpcode : String → StatementForm
  | "data_setvariableto" => .set
  | "data_changevariableby" => .change
  | "control_repeat" => .times
  | "control_forever" => .forever
  | "control_repeat_until" => .untilTrue
  | "control_while" => .whileTrue
  | "control_if" => .branches
  | "control_if_else" => .branches
  | "control_stop" => .stop
  | "procedures_call" => .call
  | _ => .block

/-- A block that step code calls by its opcode.  Blocks with substacks cannot be called. -/
def blockCall (slot : String → Lowered Expr) (block : Block) : Lowered Stmt :=
  if block.inputs.keys.any (Text.startsWith · "SUBSTACK") then
    refuse (.unsupported block.opcode)
  else do return .op block.opcode (← arguments slot block)

/-- Whether a stop block ends the body that it stands in, and nothing else. -/
def stopsScript (block : Block) : Bool :=
  block.fieldText? "STOP_OPTION" == some "this script"

/-- The step code of a statement, given how its slots and its substacks are lowered. -/
def statement (place : Place) (slot : String → Lowered Expr)
    (stack : String → Lowered (List Stmt)) (block : Block) : Lowered Stmt :=
  let iteration : Lowered (List Stmt) := do return (← stack "SUBSTACK") ++ [place.pause]
  match StatementForm.ofOpcode block.opcode with
  | .set => do
      let name ← variableName block
      return .set name (← slot "VALUE")
  | .change => do
      let name ← variableName block
      return .change name (← slot "VALUE")
  | .times => do
      let count ← slot "TIMES"
      return .times count (← iteration)
  | .forever => do return .forever (← iteration)
  | .untilTrue => do
      let cond ← slot "CONDITION"
      return .untilTrue cond (← iteration)
  | .whileTrue => do
      let cond ← slot "CONDITION"
      return .whileTrue cond (← iteration)
  | .branches => do
      let cond ← slot "CONDITION"
      let yes ← stack "SUBSTACK"
      let no ← stack "SUBSTACK2"
      return .ifElse cond yes no
  | .stop => if stopsScript block then .ok (.ret none) else blockCall slot block
  | .call => call place slot block
  | .block => blockCall slot block

/-- Lower the blocks of a chain one after the other.  A chain longer than `room` blocks meets one of
them twice. -/
def follow (place : Place) (lower : Block → Lowered Stmt) :
    (room : Nat) → (first : Option String) → Lowered (List Stmt)
  | _, none => .ok []
  | 0, some _ => refuse .looping
  | room + 1, some id => do
      let block ← place.block id
      let stmt ← lower block
      let rest ← follow place lower room block.next
      return stmt :: rest

/-- Lower a statement with at most `depth` blocks nested in one another, itself included. -/
def nested (place : Place) : (depth : Nat) → Block → Lowered Stmt
  | 0, _ => .error .endless
  | depth + 1, block =>
      statement place (input place (reported place depth) block)
        (fun name =>
          follow place (nested place depth) place.target.blocks.size (block.inputBlock? name))
        block

/-- The step code of the chain that starts at `first`, with at most `depth` blocks nested in one
another. -/
def chainWithin (place : Place) (depth : Nat) (first : Option String) : Lowered (List Stmt) :=
  follow place (nested place depth) place.target.blocks.size first

/-- The step code of the chain that starts at `first`.  Statements nested in one another are distinct
blocks unless one is nested in itself, and so are the reporters nested below them: twice the size of
the table bounds the depth. -/
def chain (place : Place) (first : Option String) : Lowered (List Stmt) :=
  chainWithin place (2 * place.target.blocks.size) first

end Lowering

end StepCode
