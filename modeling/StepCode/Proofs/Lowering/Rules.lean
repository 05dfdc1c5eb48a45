import StepCode.Compiled.Lowering
import StepCode.Proofs.Sequencing

/-!
# Rules of lowering

How literals, slots, reporters, statements and chains come by their step code, as rules: one for each
way.  Lowering has a result exactly if a rule gives it, so what holds of step code is shown rule by
rule, and the functions are opened here only.
-/

namespace StepCode.Lowering

variable {place : Place} {slot : String → Lowered Expr} {stack : String → Lowered (List Stmt)}
  {block : Block} {name : String} {expr : Expr} {stmt : Stmt}

theorem Place.block_eq_ok {id : String} :
    place.block id = .ok block ↔ place.target.block? id = some block := by
  unfold Place.block
  cases place.target.block? id <;> simp [refuse]

theorem variableName_eq_ok :
    variableName block = .ok name ↔ block.fieldText? "VARIABLE" = some name := by
  unfold variableName
  cases block.fieldText? "VARIABLE" <;> simp [refuse]

/-! ## Slots -/

inductive LiteralLowers (kind : Nat) (payload : List Json) : Expr → Prop
  | number (isKind : LiteralKind.ofCode kind = .number) :
      LiteralLowers kind payload (numberLiteral (payload.headD .null))
  | text (isKind : LiteralKind.ofCode kind = .text) :
      LiteralLowers kind payload (.text (payload.headD .null).plainText)
  | var (isKind : LiteralKind.ofCode kind = .variable) :
      LiteralLowers kind payload (.var (payload.headD .null).plainText)

theorem literal_eq_ok {kind : Nat} {payload : List Json} :
    literal kind payload = .ok expr ↔ LiteralLowers kind payload expr := by
  constructor
  · intro lowered
    unfold literal at lowered
    dsimp only at lowered
    split at lowered
    next isKind => exact Except.ok.inj lowered ▸ .number isKind
    next isKind => exact Except.ok.inj lowered ▸ .text isKind
    next isKind => exact Except.ok.inj lowered ▸ .var isKind
    next => cases lowered
    next => cases lowered
  · rintro (isKind | isKind | isKind) <;> simp only [literal, isKind]

/-- A slot without a value reads as the empty text. -/
inductive InputLowers (place : Place) (lower : Block → Lowered Expr) (block : Block) (name : String) :
    Expr → Prop
  | missing (isMissing : block.input? name = none) : InputLowers place lower block name (.text "")
  | empty (isEmpty : block.input? name = some .empty) : InputLowers place lower block name (.text "")
  | literal {kind : Nat} {payload : List Json} {expr : Expr}
      (held : block.input? name = some (.literal kind payload))
      (spelled : LiteralLowers kind payload expr) : InputLowers place lower block name expr
  | block {id : String} {inner : Block} {expr : Expr} (held : block.input? name = some (.block id))
      (found : place.target.block? id = some inner) (lowered : lower inner = .ok expr) :
      InputLowers place lower block name expr

theorem input_eq_ok {lower : Block → Lowered Expr} :
    input place lower block name = .ok expr ↔ InputLowers place lower block name expr := by
  constructor
  · intro lowered
    unfold input at lowered
    split at lowered
    next isMissing => exact Except.ok.inj lowered ▸ .missing isMissing
    next isEmpty => exact Except.ok.inj lowered ▸ .empty isEmpty
    next kind payload held => exact .literal held (literal_eq_ok.mp lowered)
    next id held =>
      obtain ⟨inner, exist, lowered⟩ := bind_eq_ok.mp lowered
      exact .block held (Place.block_eq_ok.mp exist) lowered
  · intro rule
    unfold input
    cases rule with
    | missing isMissing => rw [isMissing]
    | empty isEmpty => rw [isEmpty]
    | literal held spelled =>
        rw [held]
        exact literal_eq_ok.mpr spelled
    | block held found lowered =>
        rw [held]
        exact bind_eq_ok.mpr ⟨_, Place.block_eq_ok.mpr found, lowered⟩

/-- The fields of a block, with which it is called behind its slots. -/
def fieldArguments (block : Block) : List (String × Expr) :=
  block.fields.keys.map fun name => (name, .text ((block.fieldText? name).getD ""))

theorem arguments_eq_ok {args : List (String × Expr)} :
    arguments slot block = .ok args ↔ ∃ slots,
      List.Forall₂ (fun name arg => arg.1 = name ∧ slot name = .ok arg.2) block.inputs.keys slots ∧
        args = slots ++ fieldArguments block := by
  have one (name : String) (arg : String × Expr) :
      (do return (name, ← slot name) : Lowered (String × Expr)) = .ok arg ↔
        arg.1 = name ∧ slot name = .ok arg.2 := by
    obtain ⟨other, value⟩ := arg
    simp only [bind_eq_ok, pure, Except.pure, Except.ok.injEq, Prod.mk.injEq]
    constructor
    · rintro ⟨_, held, rfl, rfl⟩
      exact ⟨rfl, held⟩
    · rintro ⟨rfl, held⟩
      exact ⟨_, held, rfl, rfl⟩
  unfold arguments
  rw [bind_eq_ok]
  simp only [mapM_eq_ok, one]
  constructor
  · rintro ⟨slots, pairs, isArgs⟩
    exact ⟨slots, pairs, (Except.ok.inj isArgs).symm⟩
  · rintro ⟨slots, pairs, rfl⟩
    exact ⟨slots, pairs, rfl⟩

theorem exists_slot_of_arguments {args : List (String × Expr)} (filled : arguments slot block = .ok args) :
    ∀ name ∈ block.inputs.keys, ∃ value, slot name = .ok value := by
  obtain ⟨slots, pairs, -⟩ := arguments_eq_ok.mp filled
  intro name mem
  obtain ⟨arg, -, -, held⟩ := exists_of_mem_right pairs.flip mem
  exact ⟨arg.2, held⟩

/-- An argument is the value of a slot or the text of a field. -/
theorem mem_arguments {args : List (String × Expr)} (filled : arguments slot block = .ok args)
    {arg : String × Expr} (mem : arg ∈ args) :
    (arg.1 ∈ block.inputs.keys ∧ slot arg.1 = .ok arg.2) ∨ arg ∈ fieldArguments block := by
  obtain ⟨slots, pairs, rfl⟩ := arguments_eq_ok.mp filled
  refine (List.mem_append.mp mem).imp_left fun inSlots => ?_
  obtain ⟨name, stored, rfl, held⟩ := exists_of_mem_right pairs inSlots
  exact ⟨stored, held⟩

/-! ## Reporters -/

inductive ReporterLowers (place : Place) (slot : String → Lowered Expr) (block : Block) : Expr → Prop
  | number {content : Json} (form : ReporterForm.ofOpcode block.opcode = .number)
      (held : block.field? "NUM" = some content) :
      ReporterLowers place slot block (numberLiteral content)
  | noNumber (form : ReporterForm.ofOpcode block.opcode = .number)
      (missing : block.field? "NUM" = none) : ReporterLowers place slot block (.number 0.0)
  | text {field : String} (form : ReporterForm.ofOpcode block.opcode = .text field) :
      ReporterLowers place slot block (.text ((block.fieldText? field).getD ""))
  | param {outside : Expr} (form : ReporterForm.ofOpcode block.opcode = .param outside) :
      ReporterLowers place slot block
        (if place.params.contains ((block.fieldText? "VALUE").getD "")
          then .param ((block.fieldText? "VALUE").getD "") else outside)
  | var {name : String} (form : ReporterForm.ofOpcode block.opcode = .var)
      (named : block.fieldText? "VARIABLE" = some name) : ReporterLowers place slot block (.var name)
  | builtin {op : Builtin} {slots : List String} {args : List Expr}
      (form : ReporterForm.ofOpcode block.opcode = .builtin op slots)
      (filled : slots.mapM slot = .ok args) : ReporterLowers place slot block (.builtin op args)
  | helper {name : String} {slots : List String} {args : List Expr}
      (form : ReporterForm.ofOpcode block.opcode = .helper name slots)
      (filled : slots.mapM slot = .ok args) : ReporterLowers place slot block (.helper name args)
  | block {args : List (String × Expr)} (form : ReporterForm.ofOpcode block.opcode = .block)
      (filled : arguments slot block = .ok args) :
      ReporterLowers place slot block (.report block.opcode args)

theorem reporter_eq_ok :
    reporter place slot block = .ok expr ↔ ReporterLowers place slot block expr := by
  constructor
  · intro lowered
    unfold reporter at lowered
    cases form : ReporterForm.ofOpcode block.opcode with
    | number =>
        simp only [form] at lowered
        split at lowered
        next content held => exact Except.ok.inj lowered ▸ .number form held
        next missing => exact Except.ok.inj lowered ▸ .noNumber form missing
    | text field =>
        simp only [form, Except.ok.injEq] at lowered
        exact lowered ▸ .text form
    | param outside =>
        simp only [form, Except.ok.injEq] at lowered
        exact lowered ▸ .param form
    | var =>
        simp only [form, bind_eq_ok, pure, Except.pure, Except.ok.injEq] at lowered
        obtain ⟨name, named, rfl⟩ := lowered
        exact .var form (variableName_eq_ok.mp named)
    | builtin op slots =>
        simp only [form, bind_eq_ok, pure, Except.pure, Except.ok.injEq] at lowered
        obtain ⟨args, filled, rfl⟩ := lowered
        exact .builtin form filled
    | helper helper slots =>
        simp only [form, bind_eq_ok, pure, Except.pure, Except.ok.injEq] at lowered
        obtain ⟨args, filled, rfl⟩ := lowered
        exact .helper form filled
    | block =>
        simp only [form, bind_eq_ok, pure, Except.pure, Except.ok.injEq] at lowered
        obtain ⟨args, filled, rfl⟩ := lowered
        exact .block form filled
  · intro rule
    unfold reporter
    cases rule with
    | number form held => simp only [form, held]
    | noNumber form missing => simp only [form, missing]
    | text form => simp only [form]
    | param form => simp only [form]
    | var form named =>
        simp only [form]
        exact bind_eq_ok.mpr ⟨_, variableName_eq_ok.mpr named, rfl⟩
    | builtin form filled =>
        simp only [form]
        exact bind_eq_ok.mpr ⟨_, filled, rfl⟩
    | helper form filled =>
        simp only [form]
        exact bind_eq_ok.mpr ⟨_, filled, rfl⟩
    | block form filled =>
        simp only [form]
        exact bind_eq_ok.mpr ⟨_, filled, rfl⟩

/-! ## Statements -/

theorem blockCall_eq_ok :
    blockCall slot block = .ok stmt ↔
      block.inputs.keys.any (Text.startsWith · "SUBSTACK") = false ∧
        ∃ args, arguments slot block = .ok args ∧ stmt = .op block.opcode args := by
  unfold blockCall
  cases block.inputs.keys.any (Text.startsWith · "SUBSTACK") with
  | true => simp [refuse]
  | false =>
      rw [if_neg Bool.false_ne_true, bind_eq_ok]
      constructor
      · rintro ⟨args, filled, isStmt⟩
        exact ⟨rfl, args, filled, (Except.ok.inj isStmt).symm⟩
      · rintro ⟨-, args, filled, rfl⟩
        exact ⟨args, filled, rfl⟩

theorem call_eq_ok :
    call place slot block = .ok stmt ↔
      ∃ mutation proccode args, block.mutation = some mutation ∧ mutation.proccode = some proccode ∧
        mutation.ids.mapM slot = .ok args ∧
        stmt = .call ((if place.callsInWarp proccode then "W" else "Z") ++ proccode) args := by
  unfold call
  constructor
  · intro lowered
    split at lowered
    next => cases lowered
    next mutation mutated =>
      split at lowered
      next => cases lowered
      next proccode named =>
        obtain ⟨args, filled, isStmt⟩ := bind_eq_ok.mp lowered
        exact ⟨mutation, proccode, args, mutated, named, filled, (Except.ok.inj isStmt).symm⟩
  · rintro ⟨mutation, proccode, args, mutated, named, filled, rfl⟩
    simp only [mutated, named]
    exact bind_eq_ok.mpr ⟨args, filled, rfl⟩

inductive StatementLowers (place : Place) (slot : String → Lowered Expr)
    (stack : String → Lowered (List Stmt)) (block : Block) : Stmt → Prop
  | set {name : String} {value : Expr} (form : StatementForm.ofOpcode block.opcode = .set)
      (named : block.fieldText? "VARIABLE" = some name) (held : slot "VALUE" = .ok value) :
      StatementLowers place slot stack block (.set name value)
  | change {name : String} {amount : Expr} (form : StatementForm.ofOpcode block.opcode = .change)
      (named : block.fieldText? "VARIABLE" = some name) (held : slot "VALUE" = .ok amount) :
      StatementLowers place slot stack block (.change name amount)
  | times {count : Expr} {body : List Stmt} (form : StatementForm.ofOpcode block.opcode = .times)
      (held : slot "TIMES" = .ok count) (inner : stack "SUBSTACK" = .ok body) :
      StatementLowers place slot stack block (.times count (body ++ [place.pause]))
  | forever {body : List Stmt} (form : StatementForm.ofOpcode block.opcode = .forever)
      (inner : stack "SUBSTACK" = .ok body) :
      StatementLowers place slot stack block (.forever (body ++ [place.pause]))
  | untilTrue {cond : Expr} {body : List Stmt}
      (form : StatementForm.ofOpcode block.opcode = .untilTrue) (held : slot "CONDITION" = .ok cond)
      (inner : stack "SUBSTACK" = .ok body) :
      StatementLowers place slot stack block (.untilTrue cond (body ++ [place.pause]))
  | whileTrue {cond : Expr} {body : List Stmt}
      (form : StatementForm.ofOpcode block.opcode = .whileTrue) (held : slot "CONDITION" = .ok cond)
      (inner : stack "SUBSTACK" = .ok body) :
      StatementLowers place slot stack block (.whileTrue cond (body ++ [place.pause]))
  | branches {cond : Expr} {yes no : List Stmt}
      (form : StatementForm.ofOpcode block.opcode = .branches) (held : slot "CONDITION" = .ok cond)
      (first : stack "SUBSTACK" = .ok yes) (second : stack "SUBSTACK2" = .ok no) :
      StatementLowers place slot stack block (.ifElse cond yes no)
  | ret (form : StatementForm.ofOpcode block.opcode = .stop) (ends : stopsScript block = true) :
      StatementLowers place slot stack block (.ret none)
  | call {mutation : Mutation} {proccode : String} {args : List Expr}
      (form : StatementForm.ofOpcode block.opcode = .call) (mutated : block.mutation = some mutation)
      (named : mutation.proccode = some proccode) (filled : mutation.ids.mapM slot = .ok args) :
      StatementLowers place slot stack block
        (.call ((if place.callsInWarp proccode then "W" else "Z") ++ proccode) args)
  | op {args : List (String × Expr)}
      (form : StatementForm.ofOpcode block.opcode = .block ∨
        StatementForm.ofOpcode block.opcode = .stop ∧ stopsScript block = false)
      (noStack : block.inputs.keys.any (Text.startsWith · "SUBSTACK") = false)
      (filled : arguments slot block = .ok args) :
      StatementLowers place slot stack block (.op block.opcode args)

/-! One equation for each form of statements: what `statement` makes of a block of this form. -/

theorem statement_set (form : StatementForm.ofOpcode block.opcode = .set) :
    statement place slot stack block = .ok stmt ↔ ∃ name, block.fieldText? "VARIABLE" = some name ∧
      ∃ value, slot "VALUE" = .ok value ∧ Stmt.set name value = stmt := by
  simp only [statement, form, bind_eq_ok, variableName_eq_ok, pure, Except.pure, Except.ok.injEq]

theorem statement_change (form : StatementForm.ofOpcode block.opcode = .change) :
    statement place slot stack block = .ok stmt ↔ ∃ name, block.fieldText? "VARIABLE" = some name ∧
      ∃ amount, slot "VALUE" = .ok amount ∧ Stmt.change name amount = stmt := by
  simp only [statement, form, bind_eq_ok, variableName_eq_ok, pure, Except.pure, Except.ok.injEq]

theorem statement_times (form : StatementForm.ofOpcode block.opcode = .times) :
    statement place slot stack block = .ok stmt ↔ ∃ count, slot "TIMES" = .ok count ∧
      ∃ body, stack "SUBSTACK" = .ok body ∧ Stmt.times count (body ++ [place.pause]) = stmt := by
  simp [statement, form, bind_eq_ok, pure, Except.pure]

theorem statement_forever (form : StatementForm.ofOpcode block.opcode = .forever) :
    statement place slot stack block = .ok stmt ↔
      ∃ body, stack "SUBSTACK" = .ok body ∧ Stmt.forever (body ++ [place.pause]) = stmt := by
  simp [statement, form, bind_eq_ok, pure, Except.pure]

theorem statement_untilTrue (form : StatementForm.ofOpcode block.opcode = .untilTrue) :
    statement place slot stack block = .ok stmt ↔ ∃ cond, slot "CONDITION" = .ok cond ∧
      ∃ body, stack "SUBSTACK" = .ok body ∧ Stmt.untilTrue cond (body ++ [place.pause]) = stmt := by
  simp [statement, form, bind_eq_ok, pure, Except.pure]

theorem statement_whileTrue (form : StatementForm.ofOpcode block.opcode = .whileTrue) :
    statement place slot stack block = .ok stmt ↔ ∃ cond, slot "CONDITION" = .ok cond ∧
      ∃ body, stack "SUBSTACK" = .ok body ∧ Stmt.whileTrue cond (body ++ [place.pause]) = stmt := by
  simp [statement, form, bind_eq_ok, pure, Except.pure]

theorem statement_branches (form : StatementForm.ofOpcode block.opcode = .branches) :
    statement place slot stack block = .ok stmt ↔ ∃ cond, slot "CONDITION" = .ok cond ∧
      ∃ yes, stack "SUBSTACK" = .ok yes ∧ ∃ no, stack "SUBSTACK2" = .ok no ∧
        Stmt.ifElse cond yes no = stmt := by
  simp only [statement, form, bind_eq_ok, pure, Except.pure, Except.ok.injEq]

theorem statement_stop (form : StatementForm.ofOpcode block.opcode = .stop) :
    statement place slot stack block =
      if stopsScript block then .ok (.ret none) else blockCall slot block := by
  simp only [statement, form]

theorem statement_call (form : StatementForm.ofOpcode block.opcode = .call) :
    statement place slot stack block = call place slot block := by
  simp only [statement, form]

theorem statement_block (form : StatementForm.ofOpcode block.opcode = .block) :
    statement place slot stack block = blockCall slot block := by
  simp only [statement, form]

theorem StatementLowers.of_statement (lowered : statement place slot stack block = .ok stmt) :
    StatementLowers place slot stack block stmt := by
  cases form : StatementForm.ofOpcode block.opcode with
  | set =>
      obtain ⟨name, named, value, held, rfl⟩ := (statement_set form).mp lowered
      exact .set form named held
  | change =>
      obtain ⟨name, named, amount, held, rfl⟩ := (statement_change form).mp lowered
      exact .change form named held
  | times =>
      obtain ⟨count, held, body, inner, rfl⟩ := (statement_times form).mp lowered
      exact .times form held inner
  | forever =>
      obtain ⟨body, inner, rfl⟩ := (statement_forever form).mp lowered
      exact .forever form inner
  | untilTrue =>
      obtain ⟨cond, held, body, inner, rfl⟩ := (statement_untilTrue form).mp lowered
      exact .untilTrue form held inner
  | whileTrue =>
      obtain ⟨cond, held, body, inner, rfl⟩ := (statement_whileTrue form).mp lowered
      exact .whileTrue form held inner
  | branches =>
      obtain ⟨cond, held, yes, first, no, second, rfl⟩ :=
        (statement_branches form).mp lowered
      exact .branches form held first second
  | stop =>
      rw [statement_stop form] at lowered
      split at lowered
      next ends => exact Except.ok.inj lowered ▸ .ret form ends
      next goesOn =>
        obtain ⟨noStack, args, filled, rfl⟩ := blockCall_eq_ok.mp lowered
        exact .op (.inr ⟨form, by simpa using goesOn⟩) noStack filled
  | call =>
      rw [statement_call form] at lowered
      obtain ⟨mutation, proccode, args, mutated, named, filled, rfl⟩ := call_eq_ok.mp lowered
      exact .call form mutated named filled
  | block =>
      rw [statement_block form] at lowered
      obtain ⟨noStack, args, filled, rfl⟩ := blockCall_eq_ok.mp lowered
      exact .op (.inl form) noStack filled

theorem StatementLowers.statement_eq (rule : StatementLowers place slot stack block stmt) :
    statement place slot stack block = .ok stmt := by
  cases rule with
  | set form named held => exact (statement_set form).mpr ⟨_, named, _, held, rfl⟩
  | change form named held =>
      exact (statement_change form).mpr ⟨_, named, _, held, rfl⟩
  | times form held inner =>
      exact (statement_times form).mpr ⟨_, held, _, inner, rfl⟩
  | forever form inner => exact (statement_forever form).mpr ⟨_, inner, rfl⟩
  | untilTrue form held inner =>
      exact (statement_untilTrue form).mpr ⟨_, held, _, inner, rfl⟩
  | whileTrue form held inner =>
      exact (statement_whileTrue form).mpr ⟨_, held, _, inner, rfl⟩
  | branches form held first second =>
      exact (statement_branches form).mpr ⟨_, held, _, first, _, second, rfl⟩
  | ret form ends => rw [statement_stop form, if_pos ends]
  | call form mutated named filled =>
      rw [statement_call form]
      exact call_eq_ok.mpr ⟨_, _, _, mutated, named, filled, rfl⟩
  | op form noStack filled =>
      have called := blockCall_eq_ok.mpr ⟨noStack, _, filled, rfl⟩
      rcases form with form | ⟨form, goesOn⟩
      · rw [statement_block form, called]
      · rw [statement_stop form, goesOn, if_neg Bool.false_ne_true, called]

theorem statement_eq_ok :
    statement place slot stack block = .ok stmt ↔ StatementLowers place slot stack block stmt :=
  ⟨.of_statement, StatementLowers.statement_eq⟩

/-! ## Chains -/

/-- A chain of at most so many blocks, from its first one on. -/
inductive ChainLowers (place : Place) (lower : Block → Lowered Stmt) :
    (room : Nat) → (first : Option String) → List Stmt → Prop
  | nil {room : Nat} : ChainLowers place lower room none []
  | cons {room : Nat} {id : String} {block : Block} {stmt : Stmt} {rest : List Stmt}
      (found : place.target.block? id = some block) (here : lower block = .ok stmt)
      (behind : ChainLowers place lower room block.next rest) :
      ChainLowers place lower (room + 1) (some id) (stmt :: rest)

theorem follow_eq_ok {lower : Block → Lowered Stmt} {room : Nat} {first : Option String}
    {body : List Stmt} :
    follow place lower room first = .ok body ↔ ChainLowers place lower room first body := by
  constructor
  · intro lowered
    induction room generalizing first body with
    | zero =>
        cases first with
        | none => exact Except.ok.inj lowered ▸ .nil
        | some id => cases lowered
    | succ room ih =>
        cases first with
        | none => exact Except.ok.inj lowered ▸ .nil
        | some id =>
            simp only [follow, bind_eq_ok, Place.block_eq_ok, pure, Except.pure, Except.ok.injEq]
              at lowered
            obtain ⟨block, found, stmt, here, rest, behind, rfl⟩ := lowered
            exact .cons found here (ih behind)
  · intro rule
    induction rule with
    | @nil room => cases room <;> rfl
    | cons found here _ ih =>
        exact bind_eq_ok.mpr ⟨_, Place.block_eq_ok.mpr found, bind_eq_ok.mpr ⟨_, here,
          bind_eq_ok.mpr ⟨_, ih, rfl⟩⟩⟩

end StepCode.Lowering
