import StepCode.Compiled.Lowering
import StepCode.Thread.Interpret

/-!
# Plain programs

The programs for which compiled code is held against the block interpreter: a fixed set of statements
and reporters, each with no other slots and fields than those it reads.
-/

namespace StepCode

open Lowering (ReporterForm StatementForm)

/-- The slots and fields that a block reads. -/
structure Shape where
  slots : List String
  fields : List String

/-- The block has no other slots and fields. -/
def Shape.fits (block : Block) (shape : Shape) : Bool :=
  block.inputs.keys.all shape.slots.contains && block.fields.keys.all shape.fields.contains

/-- What a reporter reads.  Of the reporters without step code of their own three operators are
plain; the remainder is not, since compiled code rounds it differently. -/
def Shape.ofReporter? (opcode : String) : Option Shape :=
  match ReporterForm.ofOpcode opcode with
  | .number => some ⟨[], ["NUM"]⟩
  | .text field => some ⟨[], [field]⟩
  | .param _ => some ⟨[], ["VALUE"]⟩
  | .var => some ⟨[], ["VARIABLE"]⟩
  | .builtin _ slots => some ⟨slots, []⟩
  | .helper name slots => if name = "modulo" then none else some ⟨slots, []⟩
  | .block =>
      match opcode with
      | "operator_letter_of" => some ⟨["LETTER", "STRING"], []⟩
      | "operator_contains" => some ⟨["STRING1", "STRING2"], []⟩
      | "operator_mathop" => some ⟨["NUM"], ["OPERATOR"]⟩
      | _ => none

namespace Block

/-- A reporter that reads all it has; a number block has its number. -/
def isPlainReporter (block : Block) : Bool :=
  match Shape.ofReporter? block.opcode with
  | some shape =>
      shape.fits block &&
        (!numberOpcodes.contains block.opcode || (block.field? "NUM").isSome)
  | none => false

/-- The ends of a script that a plain stop block may ask for. -/
def stopOptions : List String :=
  ["this script", "all", "other scripts in sprite", "other scripts in stage"]

/-- A statement that reads all it has. -/
def isPlainStatement (block : Block) : Bool :=
  match StatementForm.ofOpcode block.opcode with
  | .set => Shape.fits block ⟨["VALUE"], ["VARIABLE"]⟩
  | .change => Shape.fits block ⟨["VALUE"], ["VARIABLE"]⟩
  | .times => Shape.fits block ⟨["TIMES", "SUBSTACK"], []⟩
  | .forever => Shape.fits block ⟨["SUBSTACK"], []⟩
  | .untilTrue => Shape.fits block ⟨["CONDITION", "SUBSTACK"], []⟩
  | .whileTrue => Shape.fits block ⟨["CONDITION", "SUBSTACK"], []⟩
  | .branches =>
      if block.opcode = "control_if" then Shape.fits block ⟨["CONDITION", "SUBSTACK"], []⟩
      else Shape.fits block ⟨["CONDITION", "SUBSTACK", "SUBSTACK2"], []⟩
  | .stop =>
      Shape.fits block ⟨[], ["STOP_OPTION"]⟩ &&
        (block.fieldText? "STOP_OPTION").any stopOptions.contains
  | .call =>
      let ids := (block.mutation.map Mutation.ids).getD []
      Shape.fits block ⟨ids, []⟩ && ids.all fun id => !holdsStatements id
  | .block =>
      match block.opcode with
      | "control_wait" => Shape.fits block ⟨["DURATION"], []⟩
      | "looks_say" => Shape.fits block ⟨["MESSAGE"], []⟩
      | "looks_think" => Shape.fits block ⟨["MESSAGE"], []⟩
      | _ => false

/-- The literal in a slot, if it names a text or a variable, is a string. -/
def plainLiteral (block : Block) (slot : String) : Bool :=
  match block.input? slot with
  | some (.literal kind (content :: _)) =>
      match LiteralKind.ofCode kind with
      | .text => content.asText?.isSome
      | .variable => content.asText?.isSome
      | _ => true
  | _ => true

/-- The slot holds a plain literal or a block that the predicate holds of, if it holds anything. -/
structure SlotHolds (target : Target) (holds : Block → Prop) (block : Block) (slot : String) :
    Prop where
  literal : block.plainLiteral slot = true
  reporter : ∀ id ∈ block.inputBlock? slot, ∀ inner ∈ target.block? id, holds inner

/-- The same for all slots but those of statements. -/
def SlotsHold (target : Target) (holds : Block → Prop) (block : Block) : Prop :=
  ∀ slot, holdsStatements slot = false → block.SlotHolds target holds slot

end Block

/-- A predicate of plain reporters that goes on to the reporters in their slots. -/
structure Target.GoesDown (target : Target) (holds : Block → Prop) : Prop where
  plain : ∀ block, holds block → block.isPlainReporter = true
  slots : ∀ block, holds block → block.SlotsHold target holds

/-- A plain reporter among the blocks of the target. -/
def Target.HasReporter (target : Target) (block : Block) : Prop :=
  block.isPlainReporter = true ∧ ∃ id, target.block? id = some block

/-- A tree of plain reporters over plain literals. -/
inductive Target.PlainTree (target : Target) : Block → Prop where
  | node {block : Block} (isPlain : block.isPlainReporter = true)
      (literals : ∀ slot ∈ block.inputs.keys, block.plainLiteral slot = true)
      (reporters : ∀ slot ∈ block.inputs.keys, ∀ id ∈ block.inputBlock? slot,
        ∀ inner ∈ target.block? id, target.PlainTree inner) :
      target.PlainTree block

/-- Whether a block is the root of such a tree with at most `depth` blocks on a path. -/
def Target.isPlainTree (target : Target) : (depth : Nat) → Block → Bool
  | 0, _ => false
  | depth + 1, block =>
      block.isPlainReporter && block.inputs.keys.all fun slot =>
        block.plainLiteral slot &&
          ((block.inputBlock? slot).bind target.block?).all (target.isPlainTree depth)

theorem Target.PlainTree.of_isPlainTree {target : Target} {depth : Nat} {block : Block}
    (isTree : target.isPlainTree depth block = true) : target.PlainTree block := by
  induction depth generalizing block with
  | zero => cases isTree
  | succ depth ih =>
      simp only [isPlainTree, Bool.and_eq_true, List.all_eq_true] at isTree
      refine .node isTree.1 (fun slot stored => (isTree.2 slot stored).1) ?_
      intro slot stored id isHeld inner found
      refine ih ?_
      have deeper := (isTree.2 slot stored).2
      rw [isHeld, Option.bind_some, found] at deeper
      exact deeper

/-- All that stands in the slots of blocks and behind them is plain. -/
structure Target.Plain (target : Target) : Prop where
  literals : ∀ entry ∈ target.blockList, ∀ slot ∈ entry.2.inputs.keys,
    entry.2.plainLiteral slot = true
  reporters : ∀ entry ∈ target.blockList, ∀ slot ∈ entry.2.inputs.keys, holdsStatements slot = false →
    ∀ id ∈ entry.2.inputBlock? slot, ∀ block ∈ target.block? id, block.isPlainReporter = true
  bodies : ∀ entry ∈ target.blockList, ∀ slot ∈ entry.2.inputs.keys,
    Text.startsWith slot "SUBSTACK" = true → ∀ id ∈ entry.2.inputBlock? slot,
    ∀ block ∈ target.block? id, block.isPlainStatement = true
  followers : ∀ entry ∈ target.blockList, ∀ id ∈ entry.2.next, ∀ block ∈ target.block? id,
    block.isPlainStatement = true
  /-- The slots of hats and definitions hold no reporters. -/
  entries : ∀ entry ∈ target.blockList, entry.2.isHat = true ∨ entry.2.opcode = definitionOpcode →
    ∀ slot ∈ entry.2.inputs.keys, holdsStatements slot = false → entry.2.inputBlock? slot = none
  /-- Calls have an argument for every parameter. -/
  calls : ∀ entry ∈ target.blockList, ∀ proccode ∈ entry.2.proccode?,
    ∀ found ∈ target.prototype? proccode, ∀ mutation ∈ found.2.mutation,
    entry.2.opcode = callOpcode →
    mutation.names.length ≤ ((entry.2.mutation.map Mutation.ids).getD []).length

instance (target : Target) : Decidable target.Plain :=
  decidable_of_iff
    ((∀ entry ∈ target.blockList, ∀ slot ∈ entry.2.inputs.keys, entry.2.plainLiteral slot = true) ∧
      (∀ entry ∈ target.blockList, ∀ slot ∈ entry.2.inputs.keys, holdsStatements slot = false →
        ∀ id ∈ entry.2.inputBlock? slot, ∀ block ∈ target.block? id,
          block.isPlainReporter = true) ∧
      (∀ entry ∈ target.blockList, ∀ slot ∈ entry.2.inputs.keys,
        Text.startsWith slot "SUBSTACK" = true → ∀ id ∈ entry.2.inputBlock? slot,
        ∀ block ∈ target.block? id, block.isPlainStatement = true) ∧
      (∀ entry ∈ target.blockList, ∀ id ∈ entry.2.next, ∀ block ∈ target.block? id,
        block.isPlainStatement = true) ∧
      (∀ entry ∈ target.blockList, entry.2.isHat = true ∨ entry.2.opcode = definitionOpcode →
        ∀ slot ∈ entry.2.inputs.keys, holdsStatements slot = false →
        entry.2.inputBlock? slot = none) ∧
      ∀ entry ∈ target.blockList, ∀ proccode ∈ entry.2.proccode?,
        ∀ found ∈ target.prototype? proccode, ∀ mutation ∈ found.2.mutation,
        entry.2.opcode = callOpcode →
        mutation.names.length ≤ ((entry.2.mutation.map Mutation.ids).getD []).length)
    ⟨fun h => ⟨h.1, h.2.1, h.2.2.1, h.2.2.2.1, h.2.2.2.2.1, h.2.2.2.2.2⟩,
      fun h => ⟨h.literals, h.reporters, h.bodies, h.followers, h.entries, h.calls⟩⟩

end StepCode
