import StepCode.Proofs.Lowering.Depth

/-!
# What lowering a block reads

Lowering a block reads some of its slots and then some of its substacks, in a fixed order.  It comes
to no end exactly when one of these does not, behind others that have step code.
-/

namespace StepCode.Lowering

/-- The slots that lowering a reporter reads, in order. -/
def reporterSlots (block : Block) : List String :=
  match ReporterForm.ofOpcode block.opcode with
  | .builtin _ slots => slots
  | .helper _ slots => slots
  | .block => block.inputs.keys
  | _ => []

/-- The slots of a block that is called by its opcode. -/
def calledSlots (block : Block) : List String :=
  if block.inputs.keys.any (Text.startsWith · "SUBSTACK") then [] else block.inputs.keys

/-- The slots that lowering a statement reads, in order.  None is read if the statement is refused
for something else first. -/
def statementSlots (block : Block) : List String :=
  match StatementForm.ofOpcode block.opcode with
  | .set | .change => if (block.fieldText? "VARIABLE").isSome then ["VALUE"] else []
  | .times => ["TIMES"]
  | .forever => []
  | .untilTrue | .whileTrue | .branches => ["CONDITION"]
  | .stop => if stopsScript block then [] else calledSlots block
  | .call =>
      match block.mutation with
      | some mutation => if mutation.proccode.isSome then mutation.ids else []
      | none => []
  | .block => calledSlots block

/-- The substacks that lowering a statement reads behind its slots, in order. -/
def statementStacks (block : Block) : List String :=
  match StatementForm.ofOpcode block.opcode with
  | .times | .forever | .untilTrue | .whileTrue => ["SUBSTACK"]
  | .branches => ["SUBSTACK", "SUBSTACK2"]
  | _ => []

theorem literal_ne_endless (kind : Nat) (payload : List Json) :
    literal kind payload ≠ .error .endless := by
  unfold literal
  dsimp only
  split <;> simp [refuse]

theorem variableName_ne_endless (block : Block) : variableName block ≠ .error .endless := by
  unfold variableName
  split <;> simp [refuse]

theorem arguments_eq_endless {slot : String → Lowered Expr} {block : Block} :
    arguments slot block = .error .endless ↔ block.inputs.keys.mapM slot = .error .endless := by
  unfold arguments
  simp [bind_eq_error, bind_eq_ok, mapM_eq_error, pure, Except.pure]

theorem blockCall_eq_endless {slot : String → Lowered Expr} {block : Block} :
    blockCall slot block = .error .endless ↔ (calledSlots block).mapM slot = .error .endless := by
  unfold blockCall calledSlots
  split
  · simp [refuse, pure, Except.pure]
  · simp [bind_eq_error, pure, Except.pure, arguments_eq_endless]

/-- Lowering a reporter comes to no end exactly when reading its slots does not. -/
theorem reporter_eq_endless {place : Place} {slot : String → Lowered Expr} {block : Block} :
    reporter place slot block = .error .endless ↔
      (reporterSlots block).mapM slot = .error .endless := by
  unfold reporter reporterSlots
  cases ReporterForm.ofOpcode block.opcode with
  | number => cases block.field? "NUM" <;> simp [pure, Except.pure]
  | text field => simp [pure, Except.pure]
  | param outside => simp [pure, Except.pure]
  | var => simp [bind_eq_error, pure, Except.pure, variableName_ne_endless]
  | builtin op slots => simp [bind_eq_error, pure, Except.pure]
  | helper name slots => simp [bind_eq_error, pure, Except.pure]
  | block => simp [bind_eq_error, pure, Except.pure, arguments_eq_endless]

/-- The value of a slot comes to no end only by way of a block in the slot. -/
theorem input_eq_endless {place : Place} {lower : Block → Lowered Expr} {block : Block}
    {name : String} :
    input place lower block name = .error .endless ↔
      ∃ id inner, block.inputBlock? name = some id ∧ place.target.block? id = some inner ∧
        lower inner = .error .endless := by
  unfold input Block.inputBlock?
  cases block.input? name with
  | none => simp
  | some held =>
      cases held with
      | empty => simp
      | literal kind payload => simp [literal_ne_endless]
      | block id =>
          simp only [bind_eq_error, Place.block, Option.some.injEq]
          cases found : place.target.block? id <;> simp [refuse, found]

/-- Lowering a statement comes to no end exactly when reading its slots does not, or reading its
substacks behind slots that have values. -/
theorem statement_eq_endless {place : Place} {slot : String → Lowered Expr}
    {stack : String → Lowered (List Stmt)} {block : Block} :
    statement place slot stack block = .error .endless ↔
      (statementSlots block).mapM slot = .error .endless ∨
        (∃ values, (statementSlots block).mapM slot = .ok values) ∧
          (statementStacks block).mapM stack = .error .endless := by
  unfold statement statementSlots statementStacks
  cases StatementForm.ofOpcode block.opcode with
  | set =>
      unfold variableName
      cases block.fieldText? "VARIABLE" <;>
        simp [bind_eq_error, pure, Except.pure, refuse]
  | change =>
      unfold variableName
      cases block.fieldText? "VARIABLE" <;>
        simp [bind_eq_error, pure, Except.pure, refuse]
  | times => simp [bind_eq_error, bind_eq_ok, pure, Except.pure]
  | forever => simp [bind_eq_error, pure, Except.pure]
  | untilTrue => simp [bind_eq_error, bind_eq_ok, pure, Except.pure]
  | whileTrue => simp [bind_eq_error, bind_eq_ok, pure, Except.pure]
  | branches =>
      simp only [bind_eq_error, bind_eq_ok, pure, Except.pure, List.mapM_cons, List.mapM_nil,
        reduceCtorEq, and_false, exists_false, or_false, exists_and_right, Except.ok.injEq]
      constructor
      · rintro (cond | ⟨⟨value, cond⟩, rest⟩)
        · exact .inl cond
        · exact .inr ⟨⟨[value], value, cond, by simp⟩, rest⟩
      · rintro (cond | ⟨⟨values, value, cond, -⟩, rest⟩)
        · exact .inl cond
        · exact .inr ⟨⟨value, cond⟩, rest⟩
  | stop =>
      cases stopsScript block with
      | true => simp [pure, Except.pure]
      | false => simp [blockCall_eq_endless, pure, Except.pure]
  | call =>
      unfold call
      cases block.mutation with
      | none => simp [refuse, pure, Except.pure]
      | some mutation =>
          cases found : mutation.proccode with
          | none => simp [refuse, pure, Except.pure, found]
          | some proccode => simp [bind_eq_error, pure, Except.pure, found]
  | block => simp [blockCall_eq_endless, pure, Except.pure]

end StepCode.Lowering
