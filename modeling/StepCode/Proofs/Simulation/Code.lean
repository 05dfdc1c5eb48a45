import StepCode.Proofs.Routine.Flattening
import StepCode.Proofs.Simulation.Reporters

/-!
# Blocks and their instructions

Which instruction of a routine stands for a plain block, and which list of instructions for a chain
of them.
-/

namespace StepCode

open Lowering (Place StatementForm StatementLowers)

/-! ## Code and instructions -/

/-- The instructions do what the chain does that starts at `first`. -/
def Code (place : Place) (routine : Routine) (first : Option String) (instrs : List Instr) : Prop :=
  ∃ depth room stmts, Lowering.follow place (Lowering.nested place depth) room first = .ok stmts ∧
    Routine.Holds routine.body stmts instrs ∧ routine.Supplies (helperCallsBody stmts) ∧
    ∀ id ∈ first, ∀ block ∈ place.target.block? id, block.isPlainStatement = true

/-- The slots that a block reads are lowered to the expressions. -/
structure Operands (place : Place) (routine : Routine) (block : Block) (slots : List String)
    (exprs : List Expr) : Prop where
  lowered : ∃ depth,
    slots.mapM (Lowering.input place (Lowering.reported place depth) block) = .ok exprs
  supplied : routine.Supplies (helperCallsList exprs)
  readable : ∀ slot ∈ slots, holdsStatements slot = false ∧ slot ∉ block.fields.keys
  all : ∀ slot ∈ block.readSlots, slot ∈ slots

/-- The arguments with which step code calls a block. -/
structure Arguments (place : Place) (routine : Routine) (block : Block)
    (args : List (String × Expr)) : Prop where
  lowered : ∃ depth,
    Lowering.arguments (Lowering.input place (Lowering.reported place depth) block) block = .ok args
  supplied : routine.Supplies (helperCallsArgs args)
  readable : ∀ slot ∈ block.inputs.keys, holdsStatements slot = false
  textual : numberOpcodes.contains block.opcode = false

/-- The body of a loop: the instructions of the substack, then the pause. -/
def LoopBody (place : Place) (routine : Routine) (block : Block) (body : Nat) : Prop :=
  ∃ instrs pause, routine.body body = instrs ++ [pause] ∧
    Code place routine (block.inputBlock? "SUBSTACK") instrs ∧
    Routine.HoldsStmt routine.body place.pause pause ∧ routine.Supplies place.pause.helperCalls

/-- The instruction for a plain block. -/
inductive Instructs (place : Place) (routine : Routine) (block : Block) : Instr → Prop
  | set {name : String} {expr : Expr} (opcode : block.opcode = "data_setvariableto")
      (named : block.fieldText? "VARIABLE" = some name) (noSlot : "VARIABLE" ∉ block.inputs.keys)
      (operands : Operands place routine block ["VALUE"] [expr]) :
      Instructs place routine block (.set name expr)
  | change {name : String} {expr : Expr} (opcode : block.opcode = "data_changevariableby")
      (named : block.fieldText? "VARIABLE" = some name) (noSlot : "VARIABLE" ∉ block.inputs.keys)
      (operands : Operands place routine block ["VALUE"] [expr]) :
      Instructs place routine block (.change name expr)
  | times {count : Expr} {body : Nat} (opcode : block.opcode = "control_repeat")
      (operands : Operands place routine block ["TIMES"] [count])
      (isBody : LoopBody place routine block body) :
      Instructs place routine block (.times count body)
  | forever {body : Nat} (opcode : block.opcode = "control_forever")
      (operands : Operands place routine block [] []) (isBody : LoopBody place routine block body) :
      Instructs place routine block (.forever body)
  | untilTrue {cond : Expr} {body : Nat} (opcode : block.opcode = "control_repeat_until")
      (operands : Operands place routine block ["CONDITION"] [cond])
      (isBody : LoopBody place routine block body) :
      Instructs place routine block (.untilTrue cond body)
  | whileTrue {cond : Expr} {body : Nat} (opcode : block.opcode = "control_while")
      (operands : Operands place routine block ["CONDITION"] [cond])
      (isBody : LoopBody place routine block body) :
      Instructs place routine block (.whileTrue cond body)
  | ifTrue {cond : Expr} {yes no : Nat} (opcode : block.opcode = "control_if")
      (operands : Operands place routine block ["CONDITION"] [cond])
      (isYes : Code place routine (block.inputBlock? "SUBSTACK") (routine.body yes))
      (isNo : routine.body no = []) :
      Instructs place routine block (.ifElse cond yes no)
  | ifElse {cond : Expr} {yes no : Nat} (opcode : block.opcode = "control_if_else")
      (operands : Operands place routine block ["CONDITION"] [cond])
      (isYes : Code place routine (block.inputBlock? "SUBSTACK") (routine.body yes))
      (isNo : Code place routine (block.inputBlock? "SUBSTACK2") (routine.body no)) :
      Instructs place routine block (.ifElse cond yes no)
  | ret (opcode : block.opcode = "control_stop")
      (option : block.fieldText? "STOP_OPTION" = some "this script")
      (noSlot : ∀ slot, slot ∉ block.inputs.keys) :
      Instructs place routine block (.ret none)
  | stop {option : String} {args : List (String × Expr)} (opcode : block.opcode = "control_stop")
      (isOption : block.fieldText? "STOP_OPTION" = some option)
      (other : option ∈ ["all", "other scripts in sprite", "other scripts in stage"])
      (noSlot : ∀ slot, slot ∉ block.inputs.keys) (arguments : Arguments place routine block args) :
      Instructs place routine block (.op "control_stop" args)
  | wait {args : List (String × Expr)} (opcode : block.opcode = "control_wait")
      (arguments : Arguments place routine block args) :
      Instructs place routine block (.op "control_wait" args)
  | say {args : List (String × Expr)} (opcode : block.opcode ∈ ["looks_say", "looks_think"])
      (arguments : Arguments place routine block args) :
      Instructs place routine block (.op block.opcode args)
  | call {mutation : Mutation} {proccode : String} {exprs : List Expr}
      (opcode : block.opcode = callOpcode) (mutated : block.mutation = some mutation)
      (named : mutation.proccode = some proccode)
      (operands : Operands place routine block mutation.ids exprs) :
      Instructs place routine block
        (.call ((if place.callsInWarp proccode then "W" else "Z") ++ proccode) exprs)

section

variable {place : Place} {routine : Routine} {block : Block} {id : String} {instr : Instr}
  {instrs : List Instr}

theorem Code.nil (code : Code place routine none instrs) : instrs = [] := by
  obtain ⟨depth, room, stmts, lowered, holds, -, -⟩ := code
  cases Lowering.follow_eq_ok.mp lowered with
  | nil => rwa [Routine.Holds] at holds

/-- The first block of a chain and the first instruction. -/
theorem Code.exists_first (plain : place.target.Plain) (code : Code place routine (some id) instrs) :
    ∃ block instr rest depth stmt, place.target.block? id = some block ∧
      block.isPlainStatement = true ∧ Lowering.nested place depth block = .ok stmt ∧
      Routine.HoldsStmt routine.body stmt instr ∧ routine.Supplies stmt.helperCalls ∧
      instrs = instr :: rest ∧ Code place routine block.next rest := by
  obtain ⟨depth, room, stmts, lowered, holds, supplied, isPlain⟩ := code
  cases Lowering.follow_eq_ok.mp lowered with
  | @cons room _ block stmt rest found here behind =>
      rw [Routine.Holds] at holds
      obtain ⟨instr, others, rfl, first, later⟩ := holds
      rw [helperCallsBody] at supplied
      refine ⟨block, instr, others, depth, stmt, found, isPlain id rfl block found, here, first,
        supplied.mono (List.subset_append_left _ _), rfl, depth, room, rest,
        Lowering.follow_eq_ok.mpr behind, later, supplied.mono (List.subset_append_right _ _), ?_⟩
      exact plain.followers _ (Target.mem_blockList_of_block? found)

/-- A substack of a plain block is a chain. -/
theorem Code.of_stack (plain : place.target.Plain) (found : place.target.block? id = some block)
    {slot : String} (isStack : Text.startsWith slot "SUBSTACK" = true) {depth : Nat}
    {stmts : List Stmt}
    (lowered : Lowering.follow place (Lowering.nested place depth) place.target.blocks.size
      (block.inputBlock? slot) = .ok stmts)
    (holds : Routine.Holds routine.body stmts instrs)
    (supplied : routine.Supplies (helperCallsBody stmts)) :
    Code place routine (block.inputBlock? slot) instrs := by
  refine ⟨depth, _, stmts, lowered, holds, supplied, fun inner isInner => ?_⟩
  exact plain.bodies _ (Target.mem_blockList_of_block? found) slot (Block.mem_inputs_keys isInner)
    isStack inner isInner

theorem helperCallsBody_append (stmts others : List Stmt) :
    helperCallsBody (stmts ++ others) = helperCallsBody stmts ++ helperCallsBody others := by
  induction stmts with
  | nil => rfl
  | cons stmt rest ih =>
      rw [List.cons_append, helperCallsBody, helperCallsBody, ih, List.append_assoc]

theorem holds_append {bodies : Nat → List Instr} {stmts others : List Stmt} {instrs : List Instr}
    (holds : Routine.Holds bodies (stmts ++ others) instrs) :
    ∃ first second, instrs = first ++ second ∧ Routine.Holds bodies stmts first ∧
      Routine.Holds bodies others second := by
  induction stmts generalizing instrs with
  | nil => exact ⟨[], instrs, rfl, by rw [Routine.Holds], holds⟩
  | cons stmt rest ih =>
      rw [List.cons_append, Routine.Holds] at holds
      obtain ⟨instr, later, rfl, here, holds⟩ := holds
      obtain ⟨first, second, rfl, isFirst, isSecond⟩ := ih holds
      refine ⟨instr :: first, second, rfl, ?_, isSecond⟩
      rw [Routine.Holds]
      exact ⟨instr, first, rfl, here, isFirst⟩

/-- What a loop repeats is its substack and the pause. -/
theorem LoopBody.of_iteration (plain : place.target.Plain)
    (found : place.target.block? id = some block) {depth body : Nat} {stmts : List Stmt}
    (inner : Lowering.follow place (Lowering.nested place depth) place.target.blocks.size
      (block.inputBlock? "SUBSTACK") = .ok stmts)
    (holds : Routine.Holds routine.body (stmts ++ [place.pause]) (routine.body body))
    (supplied : routine.Supplies (helperCallsBody (stmts ++ [place.pause]))) :
    LoopBody place routine block body := by
  obtain ⟨instrs, last, isBody, isFirst, isLast⟩ := holds_append holds
  rw [helperCallsBody_append] at supplied
  rw [Routine.Holds] at isLast
  obtain ⟨pause, none, rfl, isPause, isNone⟩ := isLast
  rw [Routine.Holds] at isNone
  obtain rfl := isNone
  refine ⟨instrs, pause, isBody, ?_, isPause, ?_⟩
  · exact .of_stack plain found (by decide) inner isFirst
      (supplied.mono (List.subset_append_left _ _))
  · refine supplied.mono (List.subset_append_of_subset_right _ ?_)
    rw [helperCallsBody]
    exact List.subset_append_left _ _

/-! ## The instruction of a block -/

/-- The slots of a block that fits a shape, as far as they are read. -/
theorem Operands.of_fits {all slots fields : List String} (fits : Shape.fits block ⟨all, fields⟩ = true)
    (readable : (slots.all fun slot => !holdsStatements slot && !fields.contains slot) = true)
    (covers : (all.all fun slot => holdsStatements slot || slots.contains slot) = true) {depth : Nat}
    {exprs : List Expr}
    (lowered : slots.mapM (Lowering.input place (Lowering.reported place depth) block) = .ok exprs)
    (supplied : routine.Supplies (helperCallsList exprs)) :
    Operands place routine block slots exprs := by
  refine ⟨⟨depth, lowered⟩, supplied, fun slot mem => ?_, fun slot mem => ?_⟩
  · have isReadable := List.all_eq_true.mp readable slot mem
    simp only [Bool.and_eq_true, Bool.not_eq_true', List.contains_eq_mem, decide_eq_false_iff_not]
      at isReadable
    exact ⟨isReadable.1, fun stored => isReadable.2 (Shape.fields_of_fits fits stored)⟩
  · obtain ⟨stored, isRead⟩ := List.mem_filter.mp mem
    have covered := List.all_eq_true.mp covers slot (Shape.slots_of_fits fits stored)
    simp only [Bool.or_eq_true, List.contains_eq_mem, decide_eq_true_eq] at covered
    exact covered.resolve_left (by simpa using isRead)

theorem supplies_singleton {expr : Expr} (supplied : routine.Supplies expr.helperCalls) :
    routine.Supplies (helperCallsList [expr]) := by
  rw [helperCallsList, helperCallsList, List.append_nil]
  exact supplied

/-- A block that reads a single slot. -/
theorem Operands.of_single {all fields : List String} {slot : String}
    (fits : Shape.fits block ⟨all, fields⟩ = true)
    (readable : (!holdsStatements slot && !fields.contains slot) = true)
    (covers : (all.all fun other => holdsStatements other || [slot].contains other) = true)
    {depth : Nat} {expr : Expr}
    (held : Lowering.input place (Lowering.reported place depth) block slot = .ok expr)
    (supplied : routine.Supplies expr.helperCalls) : Operands place routine block [slot] [expr] := by
  refine .of_fits fits ?_ covers (mapM_eq_ok.mpr (.cons held .nil)) (supplies_singleton supplied)
  rw [List.all_cons, List.all_nil, readable]
  rfl

/-- The opcodes of the statements with step code of their own. -/
def Lowering.StatementForm.opcodes : StatementForm → List String
  | .set => ["data_setvariableto"]
  | .change => ["data_changevariableby"]
  | .times => ["control_repeat"]
  | .forever => ["control_forever"]
  | .untilTrue => ["control_repeat_until"]
  | .whileTrue => ["control_while"]
  | .branches => ["control_if", "control_if_else"]
  | .stop => ["control_stop"]
  | .call => ["procedures_call"]
  | .block => []

theorem Lowering.StatementForm.mem_opcodes {opcode : String} {form : StatementForm}
    (isForm : StatementForm.ofOpcode opcode = form) (other : form ≠ .block) :
    opcode ∈ form.opcodes := by
  subst isForm
  unfold StatementForm.ofOpcode at *
  split at other
  all_goals first
    | exact absurd rfl other
    | simp [StatementForm.opcodes]

/-- A form that one opcode has belongs to this one. -/
theorem Lowering.StatementForm.opcode_eq {opcode name : String} {form : StatementForm}
    (isForm : StatementForm.ofOpcode opcode = form) (single : form.opcodes = [name]) :
    opcode = name := by
  have other : form ≠ .block := by
    rintro rfl
    cases single
  have mem := StatementForm.mem_opcodes isForm other
  rw [single] at mem
  exact List.mem_singleton.mp mem

/-- Both ways to write to a variable: the name is in no slot, and the value is all that is read. -/
theorem operands_of_write (fits : Shape.fits block ⟨["VALUE"], ["VARIABLE"]⟩ = true) {depth : Nat}
    {value : Expr}
    (held : Lowering.input place (Lowering.reported place depth) block "VALUE" = .ok value)
    (supplied : routine.Supplies value.helperCalls) :
    "VARIABLE" ∉ block.inputs.keys ∧ Operands place routine block ["VALUE"] [value] :=
  ⟨fun stored => by simpa using Shape.slots_of_fits fits stored,
    .of_single fits (by decide) (by decide) held supplied⟩

theorem instructs_set (form : StatementForm.ofOpcode block.opcode = .set)
    (isPlain : block.isPlainStatement = true) {depth : Nat} {name : String} {value : Expr}
    (named : block.fieldText? "VARIABLE" = some name)
    (held : Lowering.input place (Lowering.reported place depth) block "VALUE" = .ok value)
    (supplied : routine.Supplies value.helperCalls) :
    Instructs place routine block (.set name value) := by
  rw [Block.isPlainStatement, form] at isPlain
  obtain ⟨noSlot, operands⟩ := operands_of_write isPlain held supplied
  exact .set (StatementForm.opcode_eq form rfl) named noSlot operands

theorem instructs_change (form : StatementForm.ofOpcode block.opcode = .change)
    (isPlain : block.isPlainStatement = true) {depth : Nat} {name : String} {amount : Expr}
    (named : block.fieldText? "VARIABLE" = some name)
    (held : Lowering.input place (Lowering.reported place depth) block "VALUE" = .ok amount)
    (supplied : routine.Supplies amount.helperCalls) :
    Instructs place routine block (.change name amount) := by
  rw [Block.isPlainStatement, form] at isPlain
  obtain ⟨noSlot, operands⟩ := operands_of_write isPlain held supplied
  exact .change (StatementForm.opcode_eq form rfl) named noSlot operands

section

variable {depth number : Nat} {stmts : List Stmt} (plain : place.target.Plain)
  (found : place.target.block? id = some block) (isPlain : block.isPlainStatement = true)
  (inner : Lowering.follow place (Lowering.nested place depth) place.target.blocks.size
    (block.inputBlock? "SUBSTACK") = .ok stmts)
  (holds : Routine.Holds routine.body (stmts ++ [place.pause]) (routine.body number))

include plain found inner holds

/-- A loop with a condition or a count. -/
theorem operands_of_loop {slot : String} (fits : Shape.fits block ⟨[slot, "SUBSTACK"], []⟩ = true)
    (readable : holdsStatements slot = false) {value : Expr}
    (held : Lowering.input place (Lowering.reported place depth) block slot = .ok value)
    (supplied : routine.Supplies (value.helperCalls ++ helperCallsBody (stmts ++ [place.pause]))) :
    Operands place routine block [slot] [value] ∧ LoopBody place routine block number := by
  have isStack : holdsStatements "SUBSTACK" = true := by decide
  refine ⟨.of_single fits (by simp [readable]) (by simp [isStack]) held
    (supplied.mono (List.subset_append_left _ _)), ?_⟩
  exact .of_iteration plain found inner holds (supplied.mono (List.subset_append_right _ _))

include isPlain

theorem instructs_times (form : StatementForm.ofOpcode block.opcode = .times) {count : Expr}
    (held : Lowering.input place (Lowering.reported place depth) block "TIMES" = .ok count)
    (supplied : routine.Supplies (Stmt.times count (stmts ++ [place.pause])).helperCalls) :
    Instructs place routine block (.times count number) := by
  rw [Block.isPlainStatement, form] at isPlain
  rw [Stmt.helperCalls] at supplied
  obtain ⟨operands, isBody⟩ := operands_of_loop plain found inner holds isPlain rfl held supplied
  exact .times (StatementForm.opcode_eq form rfl) operands isBody

theorem instructs_untilTrue (form : StatementForm.ofOpcode block.opcode = .untilTrue) {cond : Expr}
    (held : Lowering.input place (Lowering.reported place depth) block "CONDITION" = .ok cond)
    (supplied : routine.Supplies (Stmt.untilTrue cond (stmts ++ [place.pause])).helperCalls) :
    Instructs place routine block (.untilTrue cond number) := by
  rw [Block.isPlainStatement, form] at isPlain
  rw [Stmt.helperCalls] at supplied
  obtain ⟨operands, isBody⟩ := operands_of_loop plain found inner holds isPlain rfl held supplied
  exact .untilTrue (StatementForm.opcode_eq form rfl) operands isBody

theorem instructs_whileTrue (form : StatementForm.ofOpcode block.opcode = .whileTrue) {cond : Expr}
    (held : Lowering.input place (Lowering.reported place depth) block "CONDITION" = .ok cond)
    (supplied : routine.Supplies (Stmt.whileTrue cond (stmts ++ [place.pause])).helperCalls) :
    Instructs place routine block (.whileTrue cond number) := by
  rw [Block.isPlainStatement, form] at isPlain
  rw [Stmt.helperCalls] at supplied
  obtain ⟨operands, isBody⟩ := operands_of_loop plain found inner holds isPlain rfl held supplied
  exact .whileTrue (StatementForm.opcode_eq form rfl) operands isBody

theorem instructs_forever (form : StatementForm.ofOpcode block.opcode = .forever)
    (supplied : routine.Supplies (Stmt.forever (stmts ++ [place.pause])).helperCalls) :
    Instructs place routine block (.forever number) := by
  rw [Block.isPlainStatement, form] at isPlain
  rw [Stmt.helperCalls] at supplied
  have noSlots : [].mapM (Lowering.input place (Lowering.reported place depth) block) = .ok [] := rfl
  have operands : Operands place routine block [] [] :=
    .of_fits isPlain rfl (by decide) noSlots (by simp [Routine.Supplies, helperCallsList])
  exact .forever (StatementForm.opcode_eq form rfl) operands
    (.of_iteration plain found inner holds supplied)

end

theorem instructs_branches (plain : place.target.Plain)
    (found : place.target.block? id = some block)
    (form : StatementForm.ofOpcode block.opcode = .branches)
    (isPlain : block.isPlainStatement = true) {depth : Nat} {cond : Expr} {yes no : List Stmt}
    (held : Lowering.input place (Lowering.reported place depth) block "CONDITION" = .ok cond)
    (first : Lowering.follow place (Lowering.nested place depth) place.target.blocks.size
      (block.inputBlock? "SUBSTACK") = .ok yes)
    (second : Lowering.follow place (Lowering.nested place depth) place.target.blocks.size
      (block.inputBlock? "SUBSTACK2") = .ok no)
    (holds : Routine.HoldsStmt routine.body (.ifElse cond yes no) instr)
    (supplied : routine.Supplies (Stmt.ifElse cond yes no).helperCalls) :
    Instructs place routine block instr := by
  rw [Block.isPlainStatement, form] at isPlain
  rw [Routine.HoldsStmt] at holds
  obtain ⟨number, other, rfl, holdsYes, holdsNo⟩ := holds
  rw [Stmt.helperCalls] at supplied
  have suppliedCond : routine.Supplies cond.helperCalls := supplied.mono fun name mem => by simp [mem]
  have codeYes := Code.of_stack plain found (by decide) first holdsYes
    (supplied.mono fun name mem => by simp [mem])
  have codeNo := Code.of_stack plain found (by decide) second holdsNo
    (supplied.mono fun name mem => by simp [mem])
  dsimp only at isPlain
  split at isPlain
  next isIf =>
    have noSlot : block.inputBlock? "SUBSTACK2" = none := by
      cases isSlot : block.inputBlock? "SUBSTACK2" with
      | none => rfl
      | some inner =>
          exact absurd (Shape.slots_of_fits isPlain (Block.mem_inputs_keys isSlot)) (by decide)
    rw [noSlot] at codeNo
    exact .ifTrue isIf (.of_single isPlain (by decide) (by decide) held suppliedCond) codeYes codeNo.nil
  next notIf =>
    have opcode : block.opcode = "control_if_else" := by
      simpa [StatementForm.opcodes, notIf] using StatementForm.mem_opcodes form
    exact .ifElse opcode (.of_single isPlain (by decide) (by decide) held suppliedCond) codeYes codeNo

theorem instructs_call (form : StatementForm.ofOpcode block.opcode = .call)
    (isPlain : block.isPlainStatement = true) {depth : Nat} {mutation : Mutation} {proccode : String}
    {exprs : List Expr} (mutated : block.mutation = some mutation)
    (named : mutation.proccode = some proccode)
    (filled : mutation.ids.mapM (Lowering.input place (Lowering.reported place depth) block) = .ok exprs)
    (supplied : routine.Supplies (helperCallsList exprs)) :
    Instructs place routine block
      (.call ((if place.callsInWarp proccode then "W" else "Z") ++ proccode) exprs) := by
  rw [Block.isPlainStatement, form] at isPlain
  obtain ⟨fits, readable⟩ := Bool.and_eq_true_iff.mp isPlain
  rw [mutated] at fits readable
  simp only [Option.map_some, Option.getD_some] at fits readable
  have opcode : block.opcode = callOpcode := StatementForm.opcode_eq form rfl
  refine .call opcode mutated named ⟨⟨depth, filled⟩, supplied, fun slot mem => ⟨?_, ?_⟩, ?_⟩
  · simpa using List.all_eq_true.mp readable slot mem
  · exact fun stored => by simpa using Shape.fields_of_fits fits stored
  · exact fun slot mem => Shape.slots_of_fits fits (List.mem_filter.mp mem).1

/-- The arguments of a block that fits a shape. -/
theorem Arguments.of_fits {shape : Shape} (fits : shape.fits block = true)
    (readable : (shape.slots.all fun slot => !holdsStatements slot) = true)
    (textual : numberOpcodes.contains block.opcode = false) {depth : Nat}
    {args : List (String × Expr)}
    (filled : Lowering.arguments (Lowering.input place (Lowering.reported place depth) block) block =
      .ok args)
    (supplied : routine.Supplies (helperCallsArgs args)) : Arguments place routine block args := by
  refine ⟨⟨depth, filled⟩, supplied, fun slot stored => ?_, textual⟩
  simpa using List.all_eq_true.mp readable slot (Shape.slots_of_fits fits stored)

theorem instructs_stop (form : StatementForm.ofOpcode block.opcode = .stop)
    (isPlain : block.isPlainStatement = true) (goesOn : Lowering.stopsScript block = false)
    {depth : Nat} {args : List (String × Expr)}
    (filled : Lowering.arguments (Lowering.input place (Lowering.reported place depth) block) block =
      .ok args)
    (supplied : routine.Supplies (helperCallsArgs args)) :
    Instructs place routine block (.op block.opcode args) := by
  rw [Block.isPlainStatement, form] at isPlain
  obtain ⟨fits, isOption⟩ := Bool.and_eq_true_iff.mp isPlain
  obtain ⟨option, named, isOption⟩ := (Option.any_eq_true _ _).mp isOption
  have opcode : block.opcode = "control_stop" := StatementForm.opcode_eq form rfl
  have arguments : Arguments place routine block args :=
    .of_fits fits rfl (by rw [opcode]; rfl) filled supplied
  rw [opcode]
  refine .stop opcode named ?_ (fun slot => noSlot_of_fits fits) arguments
  simp only [Lowering.stopsScript, named, beq_eq_false_iff_ne, ne_eq, Option.some.injEq] at goesOn
  simpa [Block.stopOptions, goesOn] using isOption

theorem instructs_ret (form : StatementForm.ofOpcode block.opcode = .stop)
    (isPlain : block.isPlainStatement = true) (ends : Lowering.stopsScript block = true) :
    Instructs place routine block (.ret none) := by
  rw [Block.isPlainStatement, form] at isPlain
  have noSlot slot : slot ∉ block.inputs.keys := noSlot_of_fits (Bool.and_eq_true_iff.mp isPlain).1
  exact .ret (StatementForm.opcode_eq form rfl) (by simpa [Lowering.stopsScript] using ends) noSlot

theorem instructs_block (form : StatementForm.ofOpcode block.opcode = .block)
    (isPlain : block.isPlainStatement = true) {depth : Nat} {args : List (String × Expr)}
    (filled : Lowering.arguments (Lowering.input place (Lowering.reported place depth) block) block =
      .ok args)
    (supplied : routine.Supplies (helperCallsArgs args)) :
    Instructs place routine block (.op block.opcode args) := by
  rw [Block.isPlainStatement, form] at isPlain
  dsimp only at isPlain
  split at isPlain
  next opcode =>
    have arguments : Arguments place routine block args :=
      .of_fits isPlain (by decide) (by rw [opcode]; rfl) filled supplied
    rw [opcode]
    exact .wait opcode arguments
  next opcode =>
    exact .say (by simp [opcode]) (.of_fits isPlain (by decide) (by rw [opcode]; rfl) filled supplied)
  next opcode =>
    exact .say (by simp [opcode]) (.of_fits isPlain (by decide) (by rw [opcode]; rfl) filled supplied)
  next => cases isPlain

/-- The instruction of a plain block is the one that its lowering stands for. -/
theorem instructs_of_lowers (plain : place.target.Plain) (found : place.target.block? id = some block)
    (isPlain : block.isPlainStatement = true) {depth : Nat} {stmt : Stmt}
    (lowers : StatementLowers place (Lowering.input place (Lowering.reported place depth) block)
      (fun name => Lowering.follow place (Lowering.nested place depth) place.target.blocks.size
        (block.inputBlock? name)) block stmt)
    (holds : Routine.HoldsStmt routine.body stmt instr)
    (supplied : routine.Supplies stmt.helperCalls) : Instructs place routine block instr := by
  cases lowers with
  | set form named held =>
      rw [Routine.HoldsStmt] at holds
      rw [Stmt.helperCalls] at supplied
      exact holds ▸ instructs_set form isPlain named held supplied
  | change form named held =>
      rw [Routine.HoldsStmt] at holds
      rw [Stmt.helperCalls] at supplied
      exact holds ▸ instructs_change form isPlain named held supplied
  | times form held inner =>
      rw [Routine.HoldsStmt] at holds
      obtain ⟨number, rfl, holds⟩ := holds
      exact instructs_times plain found isPlain inner holds form held supplied
  | untilTrue form held inner =>
      rw [Routine.HoldsStmt] at holds
      obtain ⟨number, rfl, holds⟩ := holds
      exact instructs_untilTrue plain found isPlain inner holds form held supplied
  | whileTrue form held inner =>
      rw [Routine.HoldsStmt] at holds
      obtain ⟨number, rfl, holds⟩ := holds
      exact instructs_whileTrue plain found isPlain inner holds form held supplied
  | forever form inner =>
      rw [Routine.HoldsStmt] at holds
      obtain ⟨number, rfl, holds⟩ := holds
      exact instructs_forever plain found isPlain inner holds form supplied
  | branches form held first second =>
      exact instructs_branches plain found form isPlain held first second holds supplied
  | ret form ends =>
      rw [Routine.HoldsStmt] at holds
      exact holds ▸ instructs_ret form isPlain ends
  | call form mutated named filled =>
      rw [Routine.HoldsStmt] at holds
      rw [Stmt.helperCalls] at supplied
      exact holds ▸ instructs_call form isPlain mutated named filled supplied
  | op form _ filled =>
      rw [Routine.HoldsStmt] at holds
      rw [Stmt.helperCalls] at supplied
      rw [holds]
      rcases form with form | ⟨form, goesOn⟩
      · exact instructs_block form isPlain filled supplied
      · exact instructs_stop form isPlain goesOn filled supplied

/-- A chain that is not at its end: its first block, the instruction of it, and the rest. -/
theorem Code.cons (plain : place.target.Plain) (code : Code place routine (some id) instrs) :
    ∃ block instr rest, place.target.block? id = some block ∧ Instructs place routine block instr ∧
      instrs = instr :: rest ∧ Code place routine block.next rest := by
  obtain ⟨block, instr, rest, depth, stmt, found, isPlain, lowered, holds, supplied, isInstrs, behind⟩ :=
    code.exists_first plain
  refine ⟨block, instr, rest, found, ?_, isInstrs, behind⟩
  cases depth with
  | zero => cases lowered
  | succ depth =>
      exact instructs_of_lowers plain found isPlain (Lowering.statement_eq_ok.mp lowered) holds supplied

end

end StepCode
