import StepCode.Proofs.Lowering.Output
import StepCode.Proofs.Lowering.Reentry
import StepCode.Proofs.Routine.Scriptless

/-!
# Strays

Loops, branches, calls and parameters have step code of their own, but only in the role they are meant
for: a loop where a value is expected, a parameter where a statement is expected, and a stop block that
names nothing to stop are handed over to compiled code as they are.  If lowering comes to no such
stray, the step code needs no script.
-/

namespace StepCode

/-! ## Step code in its tree -/

mutual

/-- No block that the statement or its bodies call asks for a script. -/
def Stmt.Scriptless : Stmt → Prop
  | .set _ value => value.Scriptless
  | .change _ amount => amount.Scriptless
  | .op opcode args => CallScriptless opcode args ∧ ArgsScriptless args
  | .call _ args => ExprsScriptless args
  | .yield => True
  | .times count body => count.Scriptless ∧ BodyScriptless body
  | .forever body => BodyScriptless body
  | .whileTrue cond body => cond.Scriptless ∧ BodyScriptless body
  | .untilTrue cond body => cond.Scriptless ∧ BodyScriptless body
  | .ifElse cond yes no => cond.Scriptless ∧ BodyScriptless yes ∧ BodyScriptless no
  | .ret none => True
  | .ret (some value) => value.Scriptless

def BodyScriptless : List Stmt → Prop
  | [] => True
  | stmt :: rest => stmt.Scriptless ∧ BodyScriptless rest

end

theorem BodyScriptless.append {body others : List Stmt} (first : BodyScriptless body)
    (second : BodyScriptless others) : BodyScriptless (body ++ others) := by
  induction body with
  | nil => exact second
  | cons stmt body ih => exact ⟨first.1, ih first.2⟩

theorem exprsScriptless_of_forall {args : List Expr} (all : ∀ arg ∈ args, arg.Scriptless) :
    ExprsScriptless args := by
  induction args with
  | nil => trivial
  | cons arg args ih => exact ⟨all arg (by simp), ih fun other mem => all other (by simp [mem])⟩

theorem argsScriptless_of_forall {args : List (String × Expr)}
    (all : ∀ arg ∈ args, arg.2.Scriptless) : ArgsScriptless args := by
  induction args with
  | nil => trivial
  | cons arg args ih => exact ⟨all arg (by simp), ih fun other mem => all other (by simp [mem])⟩

/-! ## Strays -/

/-- Blocks that enter a branch or a procedure. -/
def enteringOpcodes : List String :=
  ["control_repeat", "control_forever", "control_if", "control_if_else", "control_repeat_until",
    "control_while", callOpcode]

def parameterOpcodes : List String :=
  ["argument_reporter_string_number", "argument_reporter_boolean"]

def stopOpcode : String := "control_stop"

namespace Block

/-- A stop block that leaves its own script running, or ends all of them. -/
def stopsOthers (block : Block) : Bool :=
  callableStops.contains ((block.fieldText? "STOP_OPTION").getD "")

/-- As a statement the block is handed over to compiled code, which cannot run it. -/
def strayStatement (block : Block) : Bool :=
  parameterOpcodes.contains block.opcode ||
    (block.opcode == stopOpcode && !Lowering.stopsScript block && !block.stopsOthers)

/-- As a reporter the block is handed over to compiled code, which cannot run it. -/
def strayReporter (block : Block) : Bool :=
  enteringOpcodes.contains block.opcode || (block.opcode == stopOpcode && !block.stopsOthers)

end Block

namespace Lowering

/-- The block is stray in the role in which it is lowered. -/
def Node.Stray (target : Target) : Node → Prop
  | .statement id => ∃ block, target.block? id = some block ∧ block.strayStatement = true
  | .reporter id => ∃ block, target.block? id = some block ∧ block.strayReporter = true

/-- Lowering the chain from `first` on comes to the node. -/
def Reaches (place : Place) (first : Option String) (node : Node) : Prop :=
  ∃ id, Meets place place.target.blocks.size first id ∧
    Relation.ReflTransGen (Opens place) (.statement id) node

end Lowering

open Lowering Relation

/-- A built-in block asks for no script, or is one of those that are strays somewhere. -/
theorem StandardBlock.scriptless_cases {opcode : String} {block : StandardBlock}
    (found : StandardBlock.ofOpcode? opcode = some block) :
    (∀ args, block.Scriptless args) ∨ opcode ∈ enteringOpcodes ∨ opcode ∈ parameterOpcodes ∨
      (block = .stop ∧ opcode = stopOpcode) := by
  unfold StandardBlock.ofOpcode? at found
  split at found
  · obtain rfl := Option.some.inj found
    exact .inl fun _ => trivial
  · split at found <;> cases found <;>
      simp [StandardBlock.Scriptless, enteringOpcodes, parameterOpcodes, callOpcode, stopOpcode]

namespace Lowering

variable {place : Place} {slot : String → Lowered Expr} {stack : String → Lowered (List Stmt)}
  {block : Block}

theorem argsScriptless_of_arguments {args : List (String × Expr)}
    (alone : ∀ name ∈ block.inputs.keys, ∀ expr, slot name = .ok expr → expr.Scriptless)
    (lowered : arguments slot block = .ok args) : ArgsScriptless args := by
  refine argsScriptless_of_forall fun arg mem => ?_
  rcases mem_arguments lowered mem with ⟨stored, held⟩ | inFields
  · exact alone arg.1 stored arg.2 held
  · obtain ⟨name, -, rfl⟩ := List.mem_map.mp inFields
    trivial

/-- A block finds the text of a field, whatever its slots are called. -/
theorem namedText_of_arguments {args : List (String × Expr)} {name text : String}
    (lowered : arguments slot block = .ok args) (isText : block.fieldText? name = some text) :
    NamedText args name text := by
  obtain ⟨slots, -, rfl⟩ := arguments_eq_ok.mp lowered
  have inKeys : name ∈ block.fields.keys := by
    obtain ⟨content, isContent, -⟩ := Option.map_eq_some_iff.mp isText
    unfold Block.field? at isContent
    cases stored : block.fields.get? name with
    | none => simp [stored] at isContent
    | some value => exact Table.mem_keys_of_get? stored
  refine ⟨slots, _, rfl, List.mem_map.mpr ⟨name, inKeys, by simp [isText]⟩, fun expr mem => ?_⟩
  obtain ⟨other, -, same⟩ := List.mem_map.mp mem
  obtain ⟨rfl, rfl⟩ := Prod.mk.inj same
  simp [isText]

/-- A call of a block that is no stray asks for no script. -/
theorem callScriptless_of_arguments {args : List (String × Expr)}
    (lowered : arguments slot block = .ok args) (notEntering : block.opcode ∉ enteringOpcodes)
    (notParameter : block.opcode ∉ parameterOpcodes)
    (stops : block.opcode = stopOpcode → block.stopsOthers = true) :
    CallScriptless block.opcode args := by
  intro standard found
  rcases StandardBlock.scriptless_cases found with alone | entering | parameter | ⟨rfl, isStop⟩
  · exact alone args
  · exact absurd entering notEntering
  · exact absurd parameter notParameter
  · have callable := List.contains_iff_mem.mp (stops isStop)
    cases isText : block.fieldText? "STOP_OPTION" with
    | none => simp [isText, callableStops] at callable
    | some option =>
        rw [isText, Option.getD_some] at callable
        exact ⟨option, callable, namedText_of_arguments lowered isText⟩

/-! ## Reporters -/

theorem notEntering_of_statement (form : StatementForm.ofOpcode block.opcode = .block ∨
    StatementForm.ofOpcode block.opcode = .stop) : block.opcode ∉ enteringOpcodes := by
  have all : ∀ opcode ∈ enteringOpcodes, ¬ (StatementForm.ofOpcode opcode = .block ∨
      StatementForm.ofOpcode opcode = .stop) := by decide
  exact fun mem => all _ mem form

theorem notEntering_of_regular (regular : block.strayReporter = false) :
    block.opcode ∉ enteringOpcodes ∧ (block.opcode = stopOpcode → block.stopsOthers = true) := by
  obtain ⟨entering, stop⟩ := Bool.or_eq_false_iff.mp regular
  refine ⟨by simpa using entering, fun isStop => ?_⟩
  simpa [isStop] using stop

theorem outside_scriptless {opcode : String} {outside : Expr}
    (form : ReporterForm.ofOpcode opcode = .param outside) : outside.Scriptless := by
  unfold ReporterForm.ofOpcode at form
  split at form <;> cases form <;> trivial

theorem notParameter_of_reporter (form : ReporterForm.ofOpcode block.opcode = .block) :
    block.opcode ∉ parameterOpcodes := by
  intro mem
  simp only [parameterOpcodes, List.mem_cons, List.not_mem_nil, or_false] at mem
  rcases mem with opcode | opcode
  · rw [opcode] at form
    cases form
  · rw [opcode] at form
    cases form

theorem numberLiteral_scriptless (content : Json) : (numberLiteral content).Scriptless := by
  unfold numberLiteral
  split <;> trivial

theorem literal_scriptless {kind : Nat} {payload : List Json} {expr : Expr}
    (lowers : LiteralLowers kind payload expr) : expr.Scriptless := by
  cases lowers with
  | number => exact numberLiteral_scriptless _
  | text => trivial
  | var => trivial

/-- All slots that are read for a reporter with step code have values. -/
theorem slots_of_reporter {expr : Expr} (lowered : reporter place slot block = .ok expr) :
    ∀ name ∈ reporterSlots block, ∃ value, slot name = .ok value := by
  unfold reporterSlots
  cases reporter_eq_ok.mp lowered with
  | builtin form filled =>
      simp only [form]
      exact exists_mapM_eq_ok.mp ⟨_, filled⟩
  | helper form filled =>
      simp only [form]
      exact exists_mapM_eq_ok.mp ⟨_, filled⟩
  | block form filled =>
      simp only [form]
      exact exists_slot_of_arguments filled
  | number form => simp [form]
  | noNumber form => simp [form]
  | text form => simp [form]
  | param form => simp [form]
  | var form => simp [form]

theorem exprsScriptless_of_mapM {slots : List String} {args : List Expr}
    (alone : ∀ name ∈ slots, ∀ expr, slot name = .ok expr → expr.Scriptless)
    (filled : slots.mapM slot = .ok args) : ExprsScriptless args := by
  refine exprsScriptless_of_forall fun arg mem => ?_
  obtain ⟨name, inSlots, held⟩ := exists_of_mem_mapM filled mem
  exact alone name inSlots arg held

theorem reporter_scriptless (regular : block.strayReporter = false)
    (alone : ∀ name ∈ reporterSlots block, ∀ expr, slot name = .ok expr → expr.Scriptless)
    {expr : Expr} (lowered : reporter place slot block = .ok expr) : expr.Scriptless := by
  unfold reporterSlots at alone
  cases reporter_eq_ok.mp lowered with
  | number => exact numberLiteral_scriptless _
  | noNumber => trivial
  | text => trivial
  | param form =>
      split
      · trivial
      · exact outside_scriptless form
  | var => trivial
  | builtin form filled =>
      simp only [form] at alone
      exact exprsScriptless_of_mapM alone filled
  | helper form filled =>
      simp only [form] at alone
      exact exprsScriptless_of_mapM alone filled
  | block form filled =>
      simp only [form] at alone
      obtain ⟨notEntering, stops⟩ := notEntering_of_regular regular
      exact ⟨callScriptless_of_arguments filled notEntering (notParameter_of_reporter form) stops,
        argsScriptless_of_arguments alone filled⟩

theorem input_scriptless {lower : Block → Lowered Expr} {name : String} {expr : Expr}
    (alone : ∀ inner reporter, block.inputBlock? name = some inner →
      place.target.block? inner = some reporter → lower reporter = .ok expr → expr.Scriptless)
    (lowered : input place lower block name = .ok expr) : expr.Scriptless := by
  cases input_eq_ok.mp lowered with
  | missing => trivial
  | empty => trivial
  | literal _ spelled => exact literal_scriptless spelled
  | block held exist inner => exact alone _ _ (by simp [Block.inputBlock?, held]) exist inner

/-- The step code of a reporter needs no script if lowering comes to no stray from there. -/
theorem reported_scriptless (depth : Nat) {id : String} {block : Block}
    (found : place.target.block? id = some block)
    (regular : ∀ node, ReflTransGen (Opens place) (.reporter id) node → ¬ node.Stray place.target)
    {expr : Expr} (lowered : reported place depth block = .ok expr) : expr.Scriptless := by
  induction depth generalizing id block expr with
  | zero => cases lowered
  | succ depth ih =>
      have here : block.strayReporter = false :=
        Bool.eq_false_iff.mpr fun stray => regular _ .refl ⟨block, found, stray⟩
      refine reporter_scriptless here (fun name mem value held => ?_) lowered
      refine input_scriptless (fun inner reporter isInner exist code => ?_) held
      obtain ⟨before, after, slots⟩ := List.append_of_mem mem
      have opens : Opens place (.reporter id) (.reporter inner) :=
        .reporterSlot found slots (fun earlier inBefore =>
          ⟨depth, slots_of_reporter lowered earlier (by simp [slots, inBefore])⟩) isInner (by simp [exist])
      exact ih exist (fun node reach => regular node (.head opens reach)) code

/-! ## Statements -/

/-- What was read for a statement: its slots and substacks have step code, and if none of it needs a
script, neither does the statement. -/
structure PartsRead (slot : String → Lowered Expr) (stack : String → Lowered (List Stmt))
    (read opened : List String) (stmt : Stmt) : Prop where
  slots : ∀ name ∈ read, ∃ value, slot name = .ok value
  substacks : ∀ name ∈ opened, ∃ body, stack name = .ok body
  scriptless : (∀ name ∈ read, ∀ value, slot name = .ok value → value.Scriptless) →
    (∀ name ∈ opened, ∀ body, stack name = .ok body → BodyScriptless body) → stmt.Scriptless

theorem Place.pause_scriptless (place : Place) : place.pause.Scriptless := by
  unfold Place.pause
  split
  · exact ⟨trivial, ⟨trivial, trivial⟩, trivial⟩
  · trivial

/-- What a loop repeats needs no script if its substack needs none. -/
theorem iteration_scriptless {body : List Stmt} (inner : BodyScriptless body) :
    BodyScriptless (body ++ [place.pause]) :=
  inner.append ⟨place.pause_scriptless, trivial⟩

/-- A loop reads one slot and its substack. -/
theorem PartsRead.loop {head : String} {value : Expr} {body : List Stmt} {stmt : Stmt}
    (held : slot head = .ok value) (inner : stack "SUBSTACK" = .ok body)
    (isStmt : value.Scriptless → BodyScriptless (body ++ [place.pause]) → stmt.Scriptless) :
    PartsRead slot stack [head] ["SUBSTACK"] stmt where
  slots := by simpa using ⟨value, held⟩
  substacks := by simpa using ⟨body, inner⟩
  scriptless slots substacks := isStmt (slots head (by simp) value held)
    (iteration_scriptless (substacks "SUBSTACK" (by simp) body inner))

/-- A statement that is no stray needs no script beyond what its parts need. -/
theorem statement_reads (regular : block.strayStatement = false) {stmt : Stmt}
    (lowered : statement place slot stack block = .ok stmt) :
    PartsRead slot stack (statementSlots block) (statementStacks block) stmt := by
  obtain ⟨parameter, stop⟩ := Bool.or_eq_false_iff.mp regular
  have notParameter : block.opcode ∉ parameterOpcodes := by simpa using parameter
  unfold statementSlots statementStacks
  cases statement_eq_ok.mp lowered with
  | set form named held =>
      simp only [form, named, Option.isSome_some, if_true]
      exact ⟨by simpa using ⟨_, held⟩, by simp, fun slots _ => slots "VALUE" (by simp) _ held⟩
  | change form named held =>
      simp only [form, named, Option.isSome_some, if_true]
      exact ⟨by simpa using ⟨_, held⟩, by simp, fun slots _ => slots "VALUE" (by simp) _ held⟩
  | times form held inner =>
      simp only [form]
      exact .loop held inner fun count body => ⟨count, body⟩
  | forever form inner =>
      simp only [form]
      exact ⟨by simp, by simpa using ⟨_, inner⟩, fun _ substacks =>
        iteration_scriptless (substacks "SUBSTACK" (by simp) _ inner)⟩
  | untilTrue form held inner =>
      simp only [form]
      exact .loop held inner fun cond body => ⟨cond, body⟩
  | whileTrue form held inner =>
      simp only [form]
      exact .loop held inner fun cond body => ⟨cond, body⟩
  | branches form held first second =>
      simp only [form]
      exact ⟨by simpa using ⟨_, held⟩, by simpa using ⟨⟨_, first⟩, _, second⟩, fun slots substacks =>
        ⟨slots "CONDITION" (by simp) _ held, substacks "SUBSTACK" (by simp) _ first,
          substacks "SUBSTACK2" (by simp) _ second⟩⟩
  | ret form ends =>
      simp only [form, ends, if_true]
      exact ⟨by simp, by simp, fun _ _ => trivial⟩
  | call form mutated named filled =>
      simp only [form, mutated, named, Option.isSome_some, if_true]
      exact ⟨exists_mapM_eq_ok.mp ⟨_, filled⟩, by simp, fun alone _ => exprsScriptless_of_mapM alone filled⟩
  | @op args form noStack filled =>
      have stops (isStop : block.opcode = stopOpcode) : block.stopsOthers = true := by
        rcases form with form | ⟨-, goesOn⟩
        · rw [isStop] at form
          cases form
        · simpa [isStop, goesOn] using stop
      have notEntering := notEntering_of_statement (form.imp_right And.left)
      have reads : PartsRead slot stack (calledSlots block) [] (.op block.opcode args) := by
        rw [calledSlots, noStack, if_neg Bool.false_ne_true]
        refine ⟨exists_slot_of_arguments filled, by simp, fun alone _ => ⟨?_, ?_⟩⟩
        · exact callScriptless_of_arguments filled notEntering notParameter stops
        · exact argsScriptless_of_arguments alone filled
      rcases form with form | ⟨form, goesOn⟩
      · simpa only [form] using reads
      · simpa only [form, goesOn, Bool.false_eq_true, if_false] using reads

/-- The blocks of a chain, given that the step code of each block it comes to needs no script. -/
theorem follow_scriptless {depth room : Nat} {first : Option String}
    (alone : ∀ id block stmt, Meets place room first id → place.target.block? id = some block →
      nested place depth block = .ok stmt → stmt.Scriptless) {body : List Stmt}
    (lowered : follow place (nested place depth) room first = .ok body) : BodyScriptless body := by
  induction follow_eq_ok.mp lowered with
  | nil => trivial
  | cons found here behind ih =>
      refine ⟨alone _ _ _ (.here found) found here, ih (fun other inner code met => ?_)
        (follow_eq_ok.mpr behind)⟩
      exact alone other inner code (.later found here met)

/-- The step code of a statement needs no script if lowering comes to no stray from there. -/
theorem nested_scriptless (depth : Nat) {id : String} {block : Block}
    (found : place.target.block? id = some block)
    (regular : ∀ node, ReflTransGen (Opens place) (.statement id) node → ¬ node.Stray place.target)
    {stmt : Stmt} (lowered : nested place depth block = .ok stmt) : stmt.Scriptless := by
  induction depth generalizing id block stmt with
  | zero => cases lowered
  | succ depth ih =>
      have here : block.strayStatement = false :=
        Bool.eq_false_iff.mpr fun stray => regular _ .refl ⟨block, found, stray⟩
      have parts := statement_reads here lowered
      refine parts.scriptless (fun name mem value held => ?_) fun name mem body held => ?_
      · refine input_scriptless (fun inner reporter isInner exist code => ?_) held
        obtain ⟨before, after, slots⟩ := List.append_of_mem mem
        have opens : Opens place (.statement id) (.reporter inner) :=
          .statementSlot found slots (fun earlier inBefore =>
            ⟨depth, parts.slots earlier (by simp [slots, inBefore])⟩) isInner (by simp [exist])
        exact reported_scriptless depth exist (fun node reach => regular node (.head opens reach)) code
      · refine follow_scriptless (fun inner block stmt met exist code => ?_) held
        obtain ⟨before, after, substacks⟩ := List.append_of_mem mem
        have opens : Opens place (.statement id) (.statement inner) :=
          .stack found (fun slot inSlots => ⟨depth, parts.slots slot inSlots⟩) substacks
            (fun earlier inBefore =>
              ⟨depth, parts.substacks earlier (by simp [substacks, inBefore])⟩) met
        exact ih exist (fun node reach => regular node (.head opens reach)) code

/-- The step code of a chain needs no script if lowering it comes to no stray. -/
theorem chain_scriptless {first : Option String}
    (regular : ∀ node, Reaches place first node → ¬ node.Stray place.target) {body : List Stmt}
    (lowered : chain place first = .ok body) : BodyScriptless body :=
  follow_scriptless (fun id _ _ met found code =>
    nested_scriptless _ found (fun node reach => regular node ⟨id, met, reach⟩) code) lowered

end Lowering

end StepCode
