import StepCode.Json.Reader
import StepCode.Value.OfJson

/-!
# Blocks

The blocks of a program descriptor and what their input slots and fields say.
-/

namespace StepCode

/-- Extra state of procedure prototypes and calls.  Argument ids and names are kept in their
encoding, a JSON text. -/
structure Mutation where
  proccode : Option String
  argumentIds : Option String
  argumentNames : Option String
  warp : Option Json
  extra : Table Json
deriving Repr, Inhabited

/-- One block of a script. -/
structure Block where
  opcode : String
  next : Option String
  parent : Option String
  inputs : Table Json
  fields : Table Json
  shadow : Bool
  topLevel : Bool
  x : Option Float
  y : Option Float
  mutation : Option Mutation
  extra : Table Json
deriving Repr, Inhabited

/-- An entry of a block table: a block, or a loose reporter as a bare array. -/
inductive BlockEntry where
  | block (block : Block)
  | primitive (items : List Json)
deriving Repr, Inhabited

/-- What an input slot holds: a block, an inline literal of some kind, or nothing. -/
inductive Input where
  | block (id : String)
  | literal (kind : Nat) (payload : List Json)
  | empty
deriving Repr, Inhabited

/-- The kinds of inline literals. -/
inductive LiteralKind where
  | number
  | text
  | variable
  | list
  | unknown
deriving DecidableEq, Repr

/-- Kinds 4 to 8 are numbers; colours, texts and broadcast names are texts. -/
def LiteralKind.ofCode (code : Nat) : LiteralKind :=
  if 4 ≤ code ∧ code ≤ 8 then .number
  else if 9 ≤ code ∧ code ≤ 11 then .text
  else if code = 12 then .variable
  else if code = 13 then .list
  else .unknown

def textLiteral : Nat := 10

/-- A list of strings in its JSON encoding; anything else counts as no strings. -/
def decodeNames (encoded : Option String) : List String :=
  match encoded.bind Json.parse? with
  | some (.array items) => (items.mapM Json.asText?).getD []
  | _ => []

namespace Mutation

def ids (mutation : Mutation) : List String := decodeNames mutation.argumentIds

def names (mutation : Mutation) : List String := decodeNames mutation.argumentNames

def isWarp (mutation : Mutation) : Bool :=
  match mutation.warp with
  | some (.bool b) => b
  | some (.text s) => s == "true"
  | _ => false

end Mutation

def BlockEntry.block? : BlockEntry → Option Block
  | .block b => some b
  | .primitive _ => none

/-- Opcodes that start a script. -/
def hatOpcodes : List String :=
  ["event_whenflagclicked", "event_whenbroadcastreceived", "event_whenkeypressed",
    "event_whenthisspriteclicked", "event_whenbackdropswitchesto", "event_whengreaterthan",
    "control_start_as_clone"]

def definitionOpcode : String := "procedures_definition"

def callOpcode : String := "procedures_call"

/-- What an encoded slot holds: the second item of the array decides. -/
def Input.ofSlot : List Json → Input
  | _ :: .text id :: _ => .block id
  | _ :: .array (kind :: payload) :: _ =>
      match kind.asNat? with
      | some kind => .literal kind payload
      | none => .empty
  | _ => .empty

namespace Block

/-- A block with nothing but an opcode. -/
def bare (opcode : String) : Block where
  opcode := opcode
  next := none
  parent := none
  inputs := .empty
  fields := .empty
  shadow := false
  topLevel := false
  x := none
  y := none
  mutation := none
  extra := .empty

def isHat (block : Block) : Bool := hatOpcodes.contains block.opcode

/-- The slot called `name`, if there is one. -/
def input? (block : Block) (name : String) : Option Input := do
  let slot ← (← block.inputs.get? name).asArray?
  return Input.ofSlot slot

/-- The block in a slot: a substack, a prototype or a reporter. -/
def inputBlock? (block : Block) (name : String) : Option String :=
  match block.input? name with
  | some (.block id) => some id
  | _ => none

/-- The text in a slot, if it is an inline text. -/
def inputText? (block : Block) (name : String) : Option String :=
  match block.input? name with
  | some (.literal kind (payload :: _)) => if kind = textLiteral then payload.asText? else none
  | _ => none

/-- The value of a field, which may be wrapped in an array. -/
def field? (block : Block) (name : String) : Option Json :=
  match block.fields.get? name with
  | some (.array items) => items.head?
  | other => other

/-- The value of a field as text; what is not a string is written as JSON. -/
def fieldText? (block : Block) (name : String) : Option String :=
  (block.field? name).map fun value =>
    match value with
    | .text s => s
    | other => other.compact

def proccode? (block : Block) : Option String := do
  (← block.mutation).proccode

end Block

end StepCode
