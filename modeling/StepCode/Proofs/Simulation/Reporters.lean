import StepCode.Proofs.Lowering.Rules
import StepCode.Proofs.Routine.Linking
import StepCode.Proofs.Simulation.Alike
import StepCode.Proofs.Simulation.Plain
import StepCode.Proofs.Simulation.Yields

/-!
# Reporters and expressions

What a slot of a plain block holds and the expression it is lowered to have alike values, and finding
them changes nothing.
-/

namespace StepCode

open Lowering (Place ReporterForm)

/-! ## Expressions -/

section

variable {foreign : Foreign} {routine : Routine} {inner : Inner} {params : Table Value} {turn : Turn}

theorem evalList_yields {exprs : List Expr} {values : List Value}
    (each : List.Forall₂ (fun expr value => Yields (evalWith foreign routine inner params expr) turn value)
      exprs values) :
    Yields (evalList foreign routine inner params exprs) turn values := by
  induction each with
  | nil => rw [evalList]; exact .pure _ _
  | cons first _ ih =>
      rw [evalList]
      exact first.bind (ih.bind (.pure _ _))

theorem evalFirst_yields {exprs : List Expr} {values : List Value}
    (each : List.Forall₂ (fun expr value => Yields (evalWith foreign routine inner params expr) turn value)
      exprs values) :
    Yields (evalFirst foreign routine inner params exprs.length exprs) turn values := by
  induction each with
  | nil => rw [evalFirst]; exact .pure _ _
  | cons first _ ih =>
      rw [List.length_cons, evalFirst]
      exact first.bind (ih.bind (.pure _ _))

/-- The value of an operator that evaluates all its operands. -/
theorem evalWith_builtin {op : Builtin} (strict : op ≠ .and ∧ op ≠ .or ∧ op ≠ .elapsed) {exprs : List Expr}
    {values : List Value}
    (each : List.Forall₂ (fun expr value => Yields (evalWith foreign routine inner params expr) turn value)
      exprs values) :
    Yields (evalWith foreign routine inner params (.builtin op exprs)) turn
      (op.apply values) := by
  rw [evalWith]
  · exact (evalList_yields each).bind rfl
  · exact strict.1
  · exact strict.2.1
  · exact strict.2.2

theorem evalWith_and {first second : Expr} {value other : Value}
    (isFirst : Yields (evalWith foreign routine inner params first) turn value)
    (isSecond : Yields (evalWith foreign routine inner params second) turn other) :
    Yields (evalWith foreign routine inner params (.builtin .and [first, second])) turn
      (.bool (value.toBool && other.toBool)) := by
  simp only [evalWith, evalOperand]
  refine isFirst.bind ?_
  cases value.toBool with
  | true => exact isSecond.bind (.pure _ _)
  | false => exact .pure _ _

theorem evalWith_or {first second : Expr} {value other : Value}
    (isFirst : Yields (evalWith foreign routine inner params first) turn value)
    (isSecond : Yields (evalWith foreign routine inner params second) turn other) :
    Yields (evalWith foreign routine inner params (.builtin .or [first, second])) turn
      (.bool (value.toBool || other.toBool)) := by
  simp only [evalWith, evalOperand]
  refine isFirst.bind ?_
  cases value.toBool with
  | true => exact .pure _ _
  | false => exact isSecond.bind (.pure _ _)

end

/-- The routine has the shipped helpers of these names. -/
def Routine.Supplies (routine : Routine) (names : List String) : Prop :=
  ∀ name ∈ names, routine.helpers.get? name = (approvedHelpers Helper.shipped).get? name

/-- A routine that has all shipped helpers and nothing to do. -/
def Routine.helped : Routine :=
  { (default : Routine) with helpers := approvedHelpers Helper.shipped }

theorem Routine.supplies_helped (names : List String) : Routine.helped.Supplies names :=
  fun _ _ => rfl

theorem Routine.Supplies.mono {routine : Routine} {names fewer : List String}
    (supplied : routine.Supplies names) (subset : fewer ⊆ names) : routine.Supplies fewer :=
  fun name mem => supplied name (subset mem)

theorem helperCalls_subset {exprs : List Expr} {expr : Expr} (mem : expr ∈ exprs) :
    expr.helperCalls ⊆ helperCallsList exprs := by
  induction exprs with
  | nil => simp at mem
  | cons first rest ih =>
      rw [helperCallsList]
      rcases List.mem_cons.mp mem with rfl | later
      · exact List.subset_append_left _ _
      · exact List.subset_append_of_subset_right _ (ih later)

/-- A comparison of the order of two values with zero. -/
theorem eval_ofOrder {foreign : Foreign} {routine : Routine} {params : Table Value} {turn : Turn}
    {name : String} {op : Builtin} (strict : op ≠ .and ∧ op ≠ .or ∧ op ≠ .elapsed)
    (found : routine.helpers.get? name = some (.ofOrder name op)) {first second : Expr}
    {value other : Value} (isFirst : Yields (eval foreign routine params first) turn value)
    (isSecond : Yields (eval foreign routine params second) turn other) :
    Yields (eval foreign routine params (.helper name [first, second])) turn
      (op.apply [Builtin.cmp.apply [value, other], .number 0.0]) := by
  have room : innerEval foreign routine helperLimit =
      some (evalWith foreign routine (innerEval foreign routine 63)) := rfl
  unfold eval at *
  rw [room] at *
  simp only [evalWith, found]
  refine (evalFirst_yields (.cons isFirst (.cons isSecond .nil))).bind ?_
  refine evalWith_builtin strict (.cons ?_ (.cons ?_ .nil))
  · refine evalWith_builtin (by decide) (.cons ?_ (.cons ?_ .nil))
    · rw [evalWith]; exact .pure _ _
    · rw [evalWith]; exact .pure _ _
  · rw [evalWith]; exact .pure _ _

/-! ## Reading and evaluating -/

/-- A turn of the block interpreter and one of compiled code, both in the body of `place`. -/
structure Scene (place : Place) (params : Table Value) (left right : Turn) : Prop where
  sameTarget : right.thread.target = left.thread.target
  hosts : left.host.Alike right.host
  blocks : ∀ id, left.host.block? left.thread.target id = place.target.block? id
  bound : ∀ name ∈ place.params, ∃ value, left.thread.param? name = some value ∧
    value.Alike ((params.get? name).getD .empty)
  unbound : ∀ name, name ∉ place.params → left.thread.param? name = none
  awake : right.thread.status ≠ .yielded

/-- What is read, if `bound` reporters may be nested, and what is evaluated are alike. -/
def Agree (foreign : Foreign) (routine : Routine) (params : Table Value) (left right : Turn)
    (bound : Nat) (reading : (depth : Nat) → Reading Value) (expr : Expr) : Prop :=
  ∃ value other, value.Alike other ∧ ReadsFrom bound reading left value ∧
    Yields (eval foreign routine params expr) right other

section

variable {foreign : Foreign} {routine : Routine} {place : Place} {params : Table Value}
  {left right : Turn} {block : Block} {id name : String} {bound : Nat} {holds : Block → Prop}

/-- A slot with a reporter is read by running the reporter. -/
theorem readSlot_block {inner : String} {reporter : Block} {value : Value}
    (held : block.input? name = some (.block inner))
    (found : left.host.block? left.thread.target inner = some reporter)
    (reads : ReadsFrom bound (fun depth => readReporter foreign depth inner reporter) left value) :
    ReadsFrom bound (fun depth => readSlot foreign depth block name) left value := by
  intro depth
  unfold readSlot readSlotWith
  rw [held]
  have isGet : Yields (ε := Fault) get left left := rfl
  refine ⟨Reads.bind (.inr isGet) ?_, fun deep => isGet.bind ?_⟩
  · simp only [found]
    exact (reads depth).1
  · simp only [found]
    exact (reads depth).2 deep

theorem readSlot_absent (absent : name ∉ block.inputs.keys) (depth : Nat) :
    readSlot foreign depth block name = pure .empty := by
  have none : block.input? name = none := by
    cases found : block.inputs.get? name with
    | none => simp [Block.input?, found]
    | some slot => exact absurd (Table.mem_keys_of_get? found) absent
  unfold readSlot readSlotWith
  rw [none]

/-- A reporter is read if its slots are and it has a value for their values. -/
theorem readReporter_reads {values : String → Value} {value : Value}
    (noCall : block.opcode ≠ callOpcode)
    (slots : ∀ name ∈ block.readSlots,
      ReadsFrom bound (fun depth => readSlot foreign depth block name) left (values name))
    (reports : Yields (report foreign id block.opcode (block.args values)) left value) :
    ReadsFrom (bound + 1) (fun depth => readReporter foreign depth id block) left value := by
  intro depth
  cases depth with
  | zero => exact ⟨.inl rfl, fun deep => absurd deep (Nat.not_succ_le_zero bound)⟩
  | succ depth =>
      simp only [readReporter, if_neg noCall]
      constructor
      · have args := readArgs_reads fun name mem => (slots name mem depth).1
        exact args.bind (.inr reports)
      · intro deep
        have args := readArgs_yields fun name mem => (slots name mem depth).2 (Nat.le_of_succ_le_succ deep)
        exact args.bind reports

/-- The argument of a slot is what is read in it. -/
theorem arg_slot {values : String → Value} (notStack : holdsStatements name = false)
    (noField : name ∉ block.fields.keys)
    (reads : ReadsFrom bound (fun depth => readSlot foreign depth block name) left (values name)) :
    ((block.args values).get? name).getD .empty = values name := by
  by_cases stored : name ∈ block.inputs.keys
  · have isRead : name ∈ block.readSlots := List.mem_filter.mpr ⟨stored, by simp [notStack]⟩
    rw [Block.get?_args_slot isRead noField, Option.getD_some]
  · rw [Block.get?_args_absent stored noField, Option.getD_none]
    have pureRead : Yields (readSlot foreign bound block name) left (values name) :=
      (reads bound).2 le_rfl
    rw [readSlot_absent stored] at pureRead
    have isEmpty : Yields (ε := Fault) (pure Value.empty) left .empty := rfl
    exact isEmpty.unique pureRead

/-! ## Literals -/

theorem eval_text (text : String) :
    Yields (eval foreign routine params (.text text)) right (.text text) := by
  rw [eval, evalWith]
  exact .pure _ _

theorem eval_number (x : Float) :
    Yields (eval foreign routine params (.number x)) right (.number x) := by
  rw [eval, evalWith]
  exact .pure _ _

theorem eval_var (scene : Scene place params left right) (name : String) :
    ∃ other, (left.host.getVariable left.thread.target name).Alike other ∧
      Yields (eval foreign routine params (.var name)) right other := by
  refine ⟨right.host.getVariable right.thread.target name, ?_, ?_⟩
  · rw [scene.sameTarget]
    exact scene.hosts.getVariable _ _
  · rw [eval, evalWith]
    rfl

theorem numberLiteral_agrees (content : Json) :
    Yields (eval foreign routine params (Lowering.numberLiteral content)) right
      (Value.numericLiteral content) := by
  unfold Lowering.numberLiteral Value.numericLiteral
  cases content.asFloat? with
  | some x => exact eval_number x
  | none =>
      cases Text.finiteNumber? content.plainText with
      | some x => exact eval_number x
      | none => exact eval_text _

/-- A literal has the same value in a slot and in step code. -/
theorem literal_agrees (scene : Scene place params left right) {kind : Nat} {payload : List Json}
    {expr : Expr} (held : block.input? name = some (.literal kind payload))
    (plain : block.plainLiteral name = true) (lowers : Lowering.LiteralLowers kind payload expr) :
    Agree foreign routine params left right bound (fun depth => readSlot foreign depth block name) expr := by
  have reads : ReadsFrom bound (fun depth => readSlot foreign depth block name) left
      (literalValue kind payload left) := by
    refine .of_yields fun depth => ?_
    unfold readSlot readSlotWith
    rw [held]
    rfl
  suffices ∃ other, (literalValue kind payload left).Alike other ∧
      Yields (eval foreign routine params expr) right other by
    obtain ⟨other, alike, yields⟩ := this
    exact ⟨_, other, alike, reads, yields⟩
  cases payload with
  | nil =>
      cases lowers with
      | number isKind =>
          refine ⟨.text "", ?_, eval_text ""⟩
          simp only [literalValue, isKind]
          exact .blank
      | text isKind =>
          refine ⟨.text "", ?_, eval_text ""⟩
          simp only [literalValue, isKind]
          exact .blank
      | var isKind =>
          simp only [literalValue, isKind, if_true]
          exact eval_var scene ""
  | cons content rest =>
      simp only [Block.plainLiteral, held] at plain
      cases lowers with
      | number isKind =>
          simp only [literalValue, isKind]
          exact ⟨_, .same _, numberLiteral_agrees content⟩
      | text isKind =>
          rw [isKind] at plain
          simp only [literalValue, isKind]
          cases content with
          | text s => exact ⟨.text s, .same _, eval_text s⟩
          | _ => cases plain
      | var isKind =>
          rw [isKind] at plain
          simp only [literalValue, isKind]
          cases content with
          | text s => exact eval_var scene s
          | _ => cases plain

/-- The blocks that the predicate holds of agree, as reporters, with the step code that they are lowered
to. -/
def ReportersAgree (foreign : Foreign) (routine : Routine) (params : Table Value) (left right : Turn)
    (holds : Block → Prop) (bound : Nat) (lower : Block → Lowering.Lowered Expr) : Prop :=
  ∀ id block expr, holds block → lower block = .ok expr → routine.Supplies expr.helperCalls →
    Agree foreign routine params left right bound (fun depth => readReporter foreign depth id block) expr

/-- A slot and the expression that it is lowered to agree. -/
theorem input_agrees (scene : Scene place params left right) {lower : Block → Lowering.Lowered Expr}
    (reporters : ReportersAgree foreign routine params left right holds bound lower)
    (slot : block.SlotHolds place.target holds name) {expr : Expr}
    (lowered : Lowering.input place lower block name = .ok expr)
    (supplied : routine.Supplies expr.helperCalls) :
    Agree foreign routine params left right bound (fun depth => readSlot foreign depth block name) expr := by
  cases Lowering.input_eq_ok.mp lowered with
  | missing isMissing =>
      refine ⟨.empty, .text "", .blank, .of_yields fun depth => ?_, eval_text ""⟩
      unfold readSlot readSlotWith
      rw [isMissing]
      exact .pure _ _
  | empty isEmpty =>
      refine ⟨.empty, .text "", .blank, .of_yields fun depth => ?_, eval_text ""⟩
      unfold readSlot readSlotWith
      rw [isEmpty]
      exact .pure _ _
  | literal held spelled => exact literal_agrees scene held slot.literal spelled
  | @block inner reporter _ held isReporter isLowered =>
      have isHeld : block.inputBlock? name = some inner := by simp [Block.inputBlock?, held]
      obtain ⟨value, other, alike, reads, yields⟩ :=
        reporters inner reporter expr (slot.reporter inner isHeld reporter isReporter) isLowered supplied
      refine ⟨value, other, alike, readSlot_block held ?_ reads, yields⟩
      rw [scene.blocks]
      exact isReporter

/-- The operands of a reporter: what is read in its slots and what is evaluated for them. -/
theorem exists_operands (scene : Scene place params left right) {lower : Block → Lowering.Lowered Expr}
    (reporters : ReportersAgree foreign routine params left right holds bound lower)
    {names : List String} (slots : ∀ name ∈ names, block.SlotHolds place.target holds name)
    {exprs : List Expr}
    (lowered : names.mapM (Lowering.input place lower block) = .ok exprs)
    (supplied : routine.Supplies (helperCallsList exprs)) :
    ∃ values others : String → Value,
      (∀ name ∈ names, (values name).Alike (others name)) ∧
      (∀ name ∈ names,
        ReadsFrom bound (fun depth => readSlot foreign depth block name) left (values name)) ∧
      List.Forall₂ (fun expr value => Yields (eval foreign routine params expr) right value) exprs
        (names.map others) := by
  have pairs := mapM_eq_ok.mp lowered
  have each : ∀ name, ∃ value other, name ∈ names → value.Alike other ∧
      ReadsFrom bound (fun depth => readSlot foreign depth block name) left value ∧
      ∀ expr, Lowering.input place lower block name = .ok expr →
        Yields (eval foreign routine params expr) right other := by
    intro name
    by_cases mem : name ∈ names
    · obtain ⟨expr, isExpr, isLowered⟩ := exists_of_mem_right (List.Forall₂.flip pairs) mem
      obtain ⟨value, other, alike, reads, yields⟩ := input_agrees scene reporters
        (slots name mem) isLowered (supplied.mono (helperCalls_subset isExpr))
      refine ⟨value, other, fun _ => ⟨alike, reads, fun same isSame => ?_⟩⟩
      obtain rfl := Except.ok.inj (isLowered.symm.trans isSame)
      exact yields
    · exact ⟨.empty, .empty, fun isName => absurd isName mem⟩
  choose values others spec using each
  refine ⟨values, others, fun name mem => (spec name mem).1, fun name mem => (spec name mem).2.1, ?_⟩
  have within := (List.forall₂_and_left names exprs).mpr ⟨fun name (mem : name ∈ names) => mem, pairs⟩
  rw [List.forall₂_map_right_iff]
  exact within.flip.imp fun expr name lowers => (spec name lowers.1).2.2 expr lowers.2

/-! ## Operators -/

theorem report_operator {opcode : String} {op : Operator}
    (isOperator : StandardBlock.ofOpcode? opcode = some (.operator op)) (args : Table Value) :
    Yields (report foreign id opcode args) left (op.apply args) := by
  unfold Yields report dispatch
  rw [isOperator]
  rfl

theorem reportBlock_operator {opcode : String} {op : Operator}
    (isOperator : StandardBlock.ofOpcode? opcode = some (.operator op)) (args : Table Value)
    (awake : right.thread.status ≠ .yielded) :
    Yields (reportBlock foreign opcode args) right (op.apply args) := by
  have runs : Yields (runBlock foreign opcode args .fresh) right ⟨true, op.apply args, .fresh⟩ := by
    unfold Yields runBlock dispatch
    rw [isOperator]
    rfl
  refine runs.bind ?_
  have woken : right.thread.wake = right.thread := if_neg awake
  have stays : Yields (ε := RunError)
      (modify fun turn : Turn => { turn with thread := turn.thread.wake }) right PUnit.unit := by
    change (Except.ok PUnit.unit, { right with thread := right.thread.wake }) = _
    rw [woken]
  exact stays.bind (.pure _ _)

theorem Shape.slots_of_fits {slots fields : List String} (fits : Shape.fits block ⟨slots, fields⟩ = true)
    (stored : name ∈ block.inputs.keys) : name ∈ slots := by
  simp only [Shape.fits, Bool.and_eq_true, List.all_eq_true, List.contains_iff_mem] at fits
  exact fits.1 name stored

theorem Shape.fields_of_fits {slots fields : List String}
    (fits : Shape.fits block ⟨slots, fields⟩ = true) (stored : name ∈ block.fields.keys) :
    name ∈ fields := by
  simp only [Shape.fits, Bool.and_eq_true, List.all_eq_true, List.contains_iff_mem] at fits
  exact fits.2 name stored

/-- An operator block whose slots are its operands. -/
theorem operator_agrees (scene : Scene place params left right) {lower : Block → Lowering.Lowered Expr}
    (reporters : ReportersAgree foreign routine params left right holds bound lower)
    (inner : block.SlotsHold place.target holds) {op : Operator}
    (isOperator : StandardBlock.ofOpcode? block.opcode = some (.operator op)) {slots : List String}
    (notStacks : ∀ slot ∈ slots, holdsStatements slot = false)
    (fits : Shape.fits block ⟨slots, []⟩ = true) {exprs : List Expr} {expr : Expr}
    (lowered : slots.mapM (Lowering.input place lower block) = .ok exprs)
    (supplied : routine.Supplies (helperCallsList exprs))
    (computes : ∀ (args : Table Value) (others : String → Value),
      (∀ slot ∈ slots, ((args.get? slot).getD .empty).Alike (others slot)) →
      List.Forall₂ (fun expr value => Yields (eval foreign routine params expr) right value) exprs
        (slots.map others) →
      Yields (eval foreign routine params expr) right (op.apply args)) :
    Agree foreign routine params left right (bound + 1)
      (fun depth => readReporter foreign depth id block) expr := by
  obtain ⟨values, others, alike, reads, yields⟩ :=
    exists_operands scene reporters (fun slot mem => inner slot (notStacks slot mem)) lowered supplied
  have noCall : block.opcode ≠ callOpcode := by
    intro isCall
    rw [isCall] at isOperator
    cases isOperator
  refine ⟨op.apply (block.args values), _, .same _, ?_, computes (block.args values) others ?_ yields⟩
  · refine readReporter_reads noCall (fun name mem => ?_) (report_operator isOperator _)
    exact reads name (Shape.slots_of_fits fits (List.mem_filter.mp mem).1)
  · intro slot mem
    have noField : slot ∉ block.fields.keys := fun isField => by
      simpa using Shape.fields_of_fits fits isField
    rw [arg_slot (notStacks slot mem) noField (reads slot mem)]
    exact alike slot mem

/-- The operator of step code has the value of the operator block for alike operands. -/
def Operates (op : Operator) (slots : List String) (builtin : Builtin) : Prop :=
  ∀ (foreign : Foreign) (routine : Routine) (params : Table Value) (turn : Turn)
    (args : Table Value) (others : String → Value) (exprs : List Expr),
    (∀ slot ∈ slots, ((args.get? slot).getD .empty).Alike (others slot)) →
    List.Forall₂ (fun expr value => Yields (eval foreign routine params expr) turn value) exprs
      (slots.map others) →
    Yields (eval foreign routine params (.builtin builtin exprs)) turn (op.apply args)

theorem operates_unary {op : Operator} {slot : String} {builtin : Builtin}
    (strict : builtin ≠ .and ∧ builtin ≠ .or ∧ builtin ≠ .elapsed)
    (same : ∀ (args : Table Value) (other : Value),
      ((args.get? slot).getD .empty).Alike other → op.apply args = builtin.apply [other]) :
    Operates op [slot] builtin := by
  intro foreign routine params turn args others exprs alike yields
  rw [same args _ (alike slot (by simp))]
  exact evalWith_builtin strict yields

theorem operates_binary {op : Operator} {slot second : String} {builtin : Builtin}
    (strict : builtin ≠ .and ∧ builtin ≠ .or ∧ builtin ≠ .elapsed)
    (same : ∀ (args : Table Value) (other third : Value),
      ((args.get? slot).getD .empty).Alike other → ((args.get? second).getD .empty).Alike third →
      op.apply args = builtin.apply [other, third]) :
    Operates op [slot, second] builtin := by
  intro foreign routine params turn args others exprs alike yields
  rw [same args _ _ (alike slot (by simp))
    (alike second (by simp))]
  exact evalWith_builtin strict yields

theorem operates_and : Operates .and ["OPERAND1", "OPERAND2"] .and := by
  intro foreign routine params turn args others exprs alike yields
  simp only [Operator.apply, (alike "OPERAND1" (by simp)).toBool_eq,
    (alike "OPERAND2" (by simp)).toBool_eq]
  cases yields with
  | cons first yields =>
      cases yields with
      | cons second yields =>
          cases yields
          exact evalWith_and first second

theorem operates_or : Operates .or ["OPERAND1", "OPERAND2"] .or := by
  intro foreign routine params turn args others exprs alike yields
  simp only [Operator.apply, (alike "OPERAND1" (by simp)).toBool_eq,
    (alike "OPERAND2" (by simp)).toBool_eq]
  cases yields with
  | cons first yields =>
      cases yields with
      | cons second yields =>
          cases yields
          exact evalWith_or first second

/-- The operator blocks that are written as operators of step code. -/
theorem operates_of_ofOpcode {opcode : String} {builtin : Builtin} {slots : List String}
    (form : ReporterForm.ofOpcode opcode = .builtin builtin slots) :
    ∃ op, StandardBlock.ofOpcode? opcode = some (.operator op) ∧ Operates op slots builtin := by
  unfold ReporterForm.ofOpcode at form
  split at form <;> cases form
  · refine ⟨.add, rfl, operates_binary (by decide) fun args other third first second => ?_⟩
    simp [Operator.apply, Builtin.apply, first.toNumber_eq, second.toNumber_eq]
  · refine ⟨.subtract, rfl, operates_binary (by decide) fun args other third first second => ?_⟩
    simp [Operator.apply, Builtin.apply, first.toNumber_eq, second.toNumber_eq]
  · refine ⟨.multiply, rfl, operates_binary (by decide) fun args other third first second => ?_⟩
    simp [Operator.apply, Builtin.apply, first.toNumber_eq, second.toNumber_eq]
  · refine ⟨.divide, rfl, operates_binary (by decide) fun args other third first second => ?_⟩
    simp [Operator.apply, Builtin.apply, first.toNumber_eq, second.toNumber_eq]
  · exact ⟨.and, rfl, operates_and⟩
  · exact ⟨.or, rfl, operates_or⟩
  · refine ⟨.not, rfl, operates_unary (by decide) fun args other alike => ?_⟩
    simp [Operator.apply, Builtin.apply, alike.toBool_eq]
  · refine ⟨.join, rfl, operates_binary (by decide) fun args other third first second => ?_⟩
    simp [Operator.apply, Builtin.apply, first.toText_eq, second.toText_eq, String.join]
  · refine ⟨.length, rfl, operates_unary (by decide) fun args other alike => ?_⟩
    simp [Operator.apply, Builtin.apply, alike.toText_eq]
  · refine ⟨.round, rfl, operates_unary (by decide) fun args other alike => ?_⟩
    simp [Operator.apply, Builtin.apply, alike.toNumber_eq]

/-- The number that step code has for an order. -/
def orderNumber : Ordering → Float
  | .lt => -1.0
  | .eq => 0.0
  | .gt => 1.0

theorem apply_cmp (value other : Value) :
    Builtin.cmp.apply [value, other] = .number (orderNumber (value.compare other)) := rfl

theorem apply_lt_orderNumber (order : Ordering) :
    Builtin.lt.apply [.number (orderNumber order), .number 0.0] = .bool (order == .lt) := by
  cases order <;> exact congrArg Value.bool (by decide)

theorem apply_gt_orderNumber (order : Ordering) :
    Builtin.gt.apply [.number (orderNumber order), .number 0.0] = .bool (order == .gt) := by
  cases order <;> exact congrArg Value.bool (by decide)

theorem apply_same_orderNumber (order : Ordering) :
    Builtin.same.apply [.number (orderNumber order), .number 0.0] = .bool (order == .eq) := by
  cases order <;> exact congrArg Value.bool (by decide)

/-- The comparisons, by the order of their operands. -/
theorem order_of_ofOpcode {opcode helper : String} {slots : List String}
    (form : ReporterForm.ofOpcode opcode = .helper helper slots) (other : helper ≠ "modulo") :
    ∃ op builtin, StandardBlock.ofOpcode? opcode = some (.operator op) ∧
      slots = ["OPERAND1", "OPERAND2"] ∧ (builtin ≠ .and ∧ builtin ≠ .or ∧ builtin ≠ .elapsed) ∧
      (approvedHelpers Helper.shipped).get? helper = some (.ofOrder helper builtin) ∧
      ∀ (args : Table Value) (value third : Value),
        ((args.get? "OPERAND1").getD .empty).Alike value →
        ((args.get? "OPERAND2").getD .empty).Alike third →
        op.apply args = builtin.apply [Builtin.cmp.apply [value, third], .number 0.0] := by
  unfold ReporterForm.ofOpcode at form
  split at form <;> cases form
  · exact absurd rfl other
  · refine ⟨.lt, .lt, rfl, rfl, by decide, rfl, fun args value third first second => ?_⟩
    rw [apply_cmp, apply_lt_orderNumber, ← first.compare_eq second]
    rfl
  · refine ⟨.gt, .gt, rfl, rfl, by decide, rfl, fun args value third first second => ?_⟩
    rw [apply_cmp, apply_gt_orderNumber, ← first.compare_eq second]
    rfl
  · refine ⟨.equals, .same, rfl, rfl, by decide, rfl, fun args value third first second => ?_⟩
    rw [apply_cmp, apply_same_orderNumber, ← first.compare_eq second]
    rfl

theorem notStacks_of_builtin {opcode : String} {builtin : Builtin} {slots : List String}
    (form : ReporterForm.ofOpcode opcode = .builtin builtin slots) :
    ∀ slot ∈ slots, holdsStatements slot = false := by
  unfold ReporterForm.ofOpcode at form
  split at form <;> cases form <;> decide

/-! ## Blocks that step code calls -/

theorem evalArgs_yields {inner : Inner} {args : List (String × Expr)} {values : List (String × Value)}
    (each : List.Forall₂ (fun arg value => arg.1 = value.1 ∧
      Yields (evalWith foreign routine inner params arg.2) right value.2) args values) :
    Yields (evalArgs foreign routine inner params args) right values := by
  induction each with
  | nil => rw [evalArgs]; exact .pure _ _
  | @cons arg value _ _ first _ ih =>
      obtain ⟨name, expr⟩ := arg
      obtain ⟨_, value⟩ := value
      obtain ⟨rfl, yields⟩ := first
      rw [evalArgs]
      exact yields.bind (ih.bind (.pure _ _))

theorem helperCallsArgs_eq (args : List (String × Expr)) :
    helperCallsArgs args = helperCallsList (args.map (·.2)) := by
  induction args with
  | nil => rfl
  | cons arg rest ih => rw [helperCallsArgs, List.map_cons, helperCallsList, ih]

theorem helperCallsList_append (exprs others : List Expr) :
    helperCallsList (exprs ++ others) = helperCallsList exprs ++ helperCallsList others := by
  induction exprs with
  | nil => rfl
  | cons expr rest ih => rw [List.cons_append, helperCallsList, helperCallsList, ih, List.append_assoc]

/-- Alike values in the slots make alike arguments. -/
theorem Block.args_alike {values others : String → Value}
    (alike : ∀ name ∈ block.readSlots, (values name).Alike (others name)) :
    (block.args values).Alike (block.args others) := by
  unfold Block.args
  refine Table.Alike.insertAll (.refl .empty) (List.rel_append ?_ ?_)
  · refine List.forall₂_map_left_iff.mpr (List.forall₂_map_right_iff.mpr ?_)
    exact List.forall₂_same.mpr fun name mem => ⟨rfl, alike name mem⟩
  · exact List.forall₂_same.mpr fun entry _ => ⟨rfl, .same _⟩

theorem forall₂_and {α β : Type} {first second : α → β → Prop} {items : List α} {others : List β}
    (pairs : List.Forall₂ first items others) (again : List.Forall₂ second items others) :
    List.Forall₂ (fun item other => first item other ∧ second item other) items others := by
  induction pairs with
  | nil => exact .nil
  | cons here _ ih =>
      cases again with
      | cons here' later => exact .cons ⟨here, here'⟩ (ih later)

/-- The arguments with which step code calls a block, and those that the block has itself. -/
theorem arguments_agree (scene : Scene place params left right) {lower : Block → Lowering.Lowered Expr}
    (reporters : ReportersAgree foreign routine params left right holds bound lower)
    (inner : block.SlotsHold place.target holds)
    (notStacks : ∀ name ∈ block.inputs.keys, holdsStatements name = false)
    (textual : numberOpcodes.contains block.opcode = false) {args : List (String × Expr)}
    (lowered : Lowering.arguments (Lowering.input place lower block) block = .ok args)
    (supplied : routine.Supplies (helperCallsArgs args)) :
    ∃ (values others : String → Value) (pairs : List (String × Value)),
      (block.args values).Alike (block.args others) ∧
      (∀ name ∈ block.readSlots,
        ReadsFrom bound (fun depth => readSlot foreign depth block name) left (values name)) ∧
      Yields (evalArgs foreign routine (innerEval foreign routine helperLimit) params args) right pairs ∧
      Table.ofList pairs = block.args others := by
  obtain ⟨slots, pairs, rfl⟩ := Lowering.arguments_eq_ok.mp lowered
  have allRead : block.readSlots = block.inputs.keys :=
    List.filter_eq_self.mpr fun name mem => by simp [notStacks name mem]
  have exprs : block.inputs.keys.mapM (Lowering.input place lower block) = .ok (slots.map (·.2)) :=
    mapM_eq_ok.mpr (List.forall₂_map_right_iff.mpr (pairs.imp fun _ _ isSlot => isSlot.2))
  have named : List.Forall₂ (fun slot name => slot.1 = name) slots block.inputs.keys :=
    pairs.flip.imp fun _ _ isSlot => isSlot.1
  have suppliedSlots : routine.Supplies (helperCallsList (slots.map (·.2))) := by
    refine supplied.mono ?_
    rw [helperCallsArgs_eq, List.map_append, helperCallsList_append]
    exact List.subset_append_left _ _
  obtain ⟨values, others, alike, reads, yields⟩ :=
    exists_operands scene reporters (fun name mem => inner name (notStacks name mem)) exprs suppliedSlots
  refine ⟨values, others, _, Block.args_alike (allRead ▸ alike), allRead ▸ reads, ?_, rfl⟩
  rw [List.forall₂_map_left_iff, List.forall₂_map_right_iff] at yields
  have slotValues : List.Forall₂ (fun arg value => arg.1 = value.1 ∧
      Yields (eval foreign routine params arg.2) right value.2) slots
      (block.inputs.keys.map fun name => (name, others name)) :=
    List.forall₂_map_right_iff.mpr (forall₂_and named yields)
  have fieldValues : ∀ name, fieldValue block name = .text ((block.fieldText? name).getD "") := by
    intro name
    simp only [fieldValue, textual, Bool.false_eq_true, if_false]
  rw [allRead]
  refine evalArgs_yields (List.rel_append slotValues ?_)
  rw [Lowering.fieldArguments, List.forall₂_map_left_iff, List.forall₂_map_right_iff]
  refine List.forall₂_same.mpr fun name _ => ⟨rfl, ?_⟩
  rw [fieldValues]
  exact eval_text _

/-! ## Fields -/

/-- The argument of a field with a text; a field that is not there has the empty text. -/
theorem arg_field (textual : numberOpcodes.contains block.opcode = false)
    (noSlot : name ∉ block.inputs.keys) (values : String → Value) :
    (((block.args values).get? name).getD .empty).Alike
      (.text ((block.fieldText? name).getD "")) := by
  by_cases stored : name ∈ block.fields.keys
  · rw [Block.get?_args_field stored noSlot, Option.getD_some, fieldValue, textual]
    exact .same _
  · have absent : block.fields.get? name = none := by
      cases found : block.fields.get? name with
      | none => rfl
      | some content => exact absurd (Table.mem_keys_of_get? found) stored
    have noText : block.fieldText? name = none := by
      simp [Block.fieldText?, Block.field?, absent]
    rw [Block.get?_args_absent noSlot stored, noText]
    exact .blank

theorem noSlot_of_fits {fields : List String} (fits : Shape.fits block ⟨[], fields⟩ = true) :
    name ∉ block.inputs.keys :=
  fun stored => by simpa using Shape.slots_of_fits fits stored

/-- A reporter without slots is what it reports. -/
theorem slotless_agrees {fields : List String} (fits : Shape.fits block ⟨[], fields⟩ = true)
    (noCall : block.opcode ≠ callOpcode) {value other : Value} {expr : Expr}
    (reports : Yields (report foreign id block.opcode (block.args fun _ => .empty)) left value)
    (alike : value.Alike other) (yields : Yields (eval foreign routine params expr) right other) :
    Agree foreign routine params left right (bound + 1)
      (fun depth => readReporter foreign depth id block) expr := by
  refine ⟨value, other, alike, readReporter_reads noCall (fun name mem => ?_) reports, yields⟩
  exact absurd (List.mem_filter.mp mem).1 (noSlot_of_fits fits)

theorem report_param {opcode : String} {outside : Value}
    (isParam : StandardBlock.ofOpcode? opcode = some (.param outside)) (args : Table Value) :
    Yields (report foreign id opcode args) left
      ((left.thread.param? ((args.get? "VALUE").getD .empty).toText).getD outside) := by
  unfold Yields report dispatch
  rw [isParam]
  rfl

theorem report_getVariable {opcode : String}
    (isVariable : StandardBlock.ofOpcode? opcode = some .getVariable) (args : Table Value) :
    Yields (report foreign id opcode args) left
      (left.host.getVariable left.thread.target ((args.get? "VARIABLE").getD .empty).toText) := by
  unfold Yields report dispatch
  rw [isVariable]
  rfl

theorem number_of_ofOpcode {opcode : String} (form : ReporterForm.ofOpcode opcode = .number) :
    numberOpcodes.contains opcode = true ∧ opcode ≠ callOpcode ∧
      StandardBlock.ofOpcode? opcode = some (.operator (.literal "NUM")) := by
  unfold ReporterForm.ofOpcode at form
  split at form <;> cases form <;> exact ⟨rfl, by decide, rfl⟩

theorem text_of_ofOpcode {opcode field : String} (form : ReporterForm.ofOpcode opcode = .text field) :
    numberOpcodes.contains opcode = false ∧ opcode ≠ callOpcode ∧
      StandardBlock.ofOpcode? opcode = some (.operator (.literal field)) := by
  unfold ReporterForm.ofOpcode at form
  split at form <;> cases form <;> exact ⟨rfl, by decide, rfl⟩

theorem param_of_ofOpcode {opcode : String} {outside : Expr}
    (form : ReporterForm.ofOpcode opcode = .param outside) :
    numberOpcodes.contains opcode = false ∧ opcode ≠ callOpcode ∧
      ∃ value, StandardBlock.ofOpcode? opcode = some (.param value) ∧
        ∀ (foreign : Foreign) (routine : Routine) (params : Table Value) (turn : Turn),
          Yields (eval foreign routine params outside) turn value := by
  unfold ReporterForm.ofOpcode at form
  split at form <;> cases form
  · exact ⟨rfl, by decide, .number 0.0, rfl, fun foreign routine params turn => eval_number 0.0⟩
  · refine ⟨rfl, by decide, .bool false, rfl, fun foreign routine params turn => ?_⟩
    rw [eval, evalWith]
    exact .pure _ _

theorem var_of_ofOpcode {opcode : String} (form : ReporterForm.ofOpcode opcode = .var) :
    numberOpcodes.contains opcode = false ∧ opcode ≠ callOpcode ∧
      StandardBlock.ofOpcode? opcode = some .getVariable := by
  unfold ReporterForm.ofOpcode at form
  split at form <;> cases form
  exact ⟨rfl, by decide, rfl⟩

/-! ## All reporters -/

/-- Alike arguments give alike results. -/
theorem Operator.apply_alike {args others : Table Value} (alike : args.Alike others) (op : Operator) :
    (op.apply args).Alike (op.apply others) := by
  have numbers : ∀ name, ((args.get? name).getD .empty).toNumber =
      ((others.get? name).getD .empty).toNumber := fun name => (alike.getD_alike name).toNumber_eq
  have texts : ∀ name, ((args.get? name).getD .empty).toText =
      ((others.get? name).getD .empty).toText := fun name => (alike.getD_alike name).toText_eq
  have truths : ∀ name, ((args.get? name).getD .empty).toBool =
      ((others.get? name).getD .empty).toBool := fun name => (alike.getD_alike name).toBool_eq
  have orders : ((args.get? "OPERAND1").getD .empty).compare ((args.get? "OPERAND2").getD .empty) =
      ((others.get? "OPERAND1").getD .empty).compare ((others.get? "OPERAND2").getD .empty) :=
    (alike.getD_alike _).compare_eq (alike.getD_alike _)
  cases op with
  | literal field => exact alike.getD_alike field
  | _ =>
      simp only [Operator.apply, Value.looselyEquals, numbers, texts, truths, orders]
      exact .same _

/-- The reporters without step code of their own that plain programs may have. -/
theorem called_of_ofOpcode {opcode : String} {shape : Shape}
    (form : ReporterForm.ofOpcode opcode = .block) (isShape : Shape.ofReporter? opcode = some shape) :
    numberOpcodes.contains opcode = false ∧ opcode ≠ callOpcode ∧
      (∀ slot ∈ shape.slots, holdsStatements slot = false) ∧
      ∃ op, StandardBlock.ofOpcode? opcode = some (.operator op) := by
  simp only [Shape.ofReporter?, form] at isShape
  split at isShape <;> cases isShape <;> exact ⟨rfl, by decide, by decide, _, rfl⟩

theorem number_agrees (form : ReporterForm.ofOpcode block.opcode = .number)
    (fits : Shape.fits block ⟨[], ["NUM"]⟩ = true) {content : Json}
    (isContent : block.field? "NUM" = some content) :
    Agree foreign routine params left right (bound + 1)
      (fun depth => readReporter foreign depth id block)
      (Lowering.numberLiteral content) := by
  obtain ⟨isNumber, noCall, isLiteral⟩ := number_of_ofOpcode form
  have stored : "NUM" ∈ block.fields.keys := by
    cases found : block.fields.get? "NUM" with
    | none => simp [Block.field?, found] at isContent
    | some _ => exact Table.mem_keys_of_get? found
  have isValue : (Operator.literal "NUM").apply (block.args fun _ => .empty) =
      Value.numericLiteral content := by
    simp only [Operator.apply, Block.get?_args_field stored (noSlot_of_fits fits), Option.getD_some,
      fieldValue, isNumber, if_true, isContent, Option.map_some]
  have reports : Yields (report foreign id block.opcode (block.args fun _ => .empty)) left
      (Value.numericLiteral content) := isValue ▸ report_operator isLiteral _
  exact slotless_agrees fits noCall reports (.same _) (numberLiteral_agrees content)

theorem text_agrees {field : String} (form : ReporterForm.ofOpcode block.opcode = .text field)
    (fits : Shape.fits block ⟨[], [field]⟩ = true) :
    Agree foreign routine params left right (bound + 1)
      (fun depth => readReporter foreign depth id block)
      (.text ((block.fieldText? field).getD "")) := by
  obtain ⟨textual, noCall, isLiteral⟩ := text_of_ofOpcode form
  exact slotless_agrees fits noCall (report_operator isLiteral _)
    (arg_field textual (noSlot_of_fits fits) _) (eval_text _)

theorem param_agrees (scene : Scene place params left right) {outside : Expr}
    (form : ReporterForm.ofOpcode block.opcode = .param outside)
    (fits : Shape.fits block ⟨[], ["VALUE"]⟩ = true) :
    Agree foreign routine params left right (bound + 1)
      (fun depth => readReporter foreign depth id block)
      (if place.params.contains ((block.fieldText? "VALUE").getD "")
        then .param ((block.fieldText? "VALUE").getD "") else outside) := by
  obtain ⟨textual, noCall, value, isParam, yields⟩ := param_of_ofOpcode form
  have isText : (((block.args fun _ => .empty).get? "VALUE").getD .empty).toText =
      (block.fieldText? "VALUE").getD "" :=
    (arg_field textual (noSlot_of_fits fits) _).toText_eq
  have reports : Yields (report foreign id block.opcode (block.args fun _ => .empty)) left
      ((left.thread.param? ((block.fieldText? "VALUE").getD "")).getD value) :=
    isText ▸ report_param isParam _
  by_cases declared : (block.fieldText? "VALUE").getD "" ∈ place.params
  · obtain ⟨bound, isBound, alike⟩ := scene.bound _ declared
    rw [if_pos (List.contains_iff_mem.mpr declared)]
    rw [isBound] at reports
    refine slotless_agrees fits noCall reports alike ?_
    rw [eval, evalWith]
    exact .pure _ _
  · rw [if_neg fun contains => declared (List.contains_iff_mem.mp contains)]
    rw [scene.unbound _ declared] at reports
    exact slotless_agrees fits noCall reports (.same _) (yields _ _ _ _)

theorem var_agrees (scene : Scene place params left right)
    (form : ReporterForm.ofOpcode block.opcode = .var)
    (fits : Shape.fits block ⟨[], ["VARIABLE"]⟩ = true)
    (named : block.fieldText? "VARIABLE" = some name) :
    Agree foreign routine params left right (bound + 1)
      (fun depth => readReporter foreign depth id block)
      (.var name) := by
  obtain ⟨textual, noCall, isVariable⟩ := var_of_ofOpcode form
  have isText : (((block.args fun _ => .empty).get? "VARIABLE").getD .empty).toText = name := by
    rw [(arg_field textual (noSlot_of_fits fits) _).toText_eq, named]
    rfl
  have reports : Yields (report foreign id block.opcode (block.args fun _ => .empty)) left
      (left.host.getVariable left.thread.target name) := isText ▸ report_getVariable isVariable _
  obtain ⟨other, alike, yields⟩ := eval_var scene name
  exact slotless_agrees fits noCall reports alike yields

theorem builtin_agrees (scene : Scene place params left right) {lower : Block → Lowering.Lowered Expr}
    (reporters : ReportersAgree foreign routine params left right holds bound lower)
    (inner : block.SlotsHold place.target holds) {builtin : Builtin} {slots : List String}
    (form : ReporterForm.ofOpcode block.opcode = .builtin builtin slots)
    (fits : Shape.fits block ⟨slots, []⟩ = true) {exprs : List Expr}
    (lowered : slots.mapM (Lowering.input place lower block) = .ok exprs)
    (supplied : routine.Supplies (helperCallsList exprs)) :
    Agree foreign routine params left right (bound + 1)
      (fun depth => readReporter foreign depth id block)
      (.builtin builtin exprs) := by
  obtain ⟨op, isOperator, operates⟩ := operates_of_ofOpcode form
  exact operator_agrees scene reporters inner isOperator (notStacks_of_builtin form) fits lowered
    supplied fun args others => operates foreign routine params right args others exprs

theorem helper_agrees (scene : Scene place params left right) {lower : Block → Lowering.Lowered Expr}
    (reporters : ReportersAgree foreign routine params left right holds bound lower)
    (inner : block.SlotsHold place.target holds) {helper : String} {slots : List String}
    (form : ReporterForm.ofOpcode block.opcode = .helper helper slots) (other : helper ≠ "modulo")
    (fits : Shape.fits block ⟨slots, []⟩ = true) {exprs : List Expr}
    (lowered : slots.mapM (Lowering.input place lower block) = .ok exprs)
    (supplied : routine.Supplies (Expr.helper helper exprs).helperCalls) :
    Agree foreign routine params left right (bound + 1)
      (fun depth => readReporter foreign depth id block)
      (.helper helper exprs) := by
  obtain ⟨op, builtin, isOperator, rfl, strict, isShipped, same⟩ := order_of_ofOpcode form other
  rw [Expr.helperCalls] at supplied
  have isHelper := (supplied helper (by simp)).trans isShipped
  refine operator_agrees scene reporters inner isOperator (by decide) fits lowered
    (supplied.mono (List.subset_cons_self _ _)) ?_
  intro args others alike yields
  cases yields with
  | cons first yields =>
      cases yields with
      | cons second yields =>
          cases yields
          rw [same args _ _ (alike _ (by simp)) (alike _ (by simp))]
          exact eval_ofOrder strict isHelper first second

/-- A reporter that step code calls. -/
theorem called_agrees (scene : Scene place params left right) {lower : Block → Lowering.Lowered Expr}
    (reporters : ReportersAgree foreign routine params left right holds bound lower)
    (inner : block.SlotsHold place.target holds)
    (form : ReporterForm.ofOpcode block.opcode = .block) {shape : Shape}
    (isShape : Shape.ofReporter? block.opcode = some shape) (fits : shape.fits block = true)
    {args : List (String × Expr)}
    (lowered : Lowering.arguments (Lowering.input place lower block) block = .ok args)
    (supplied : routine.Supplies (helperCallsArgs args)) :
    Agree foreign routine params left right (bound + 1)
      (fun depth => readReporter foreign depth id block)
      (.report block.opcode args) := by
  obtain ⟨textual, noCall, notStacks, op, isOperator⟩ := called_of_ofOpcode form isShape
  obtain ⟨values, others, pairs, alike, reads, yields, isArgs⟩ := arguments_agree scene reporters inner
    (fun name mem => notStacks name (Shape.slots_of_fits fits mem)) textual lowered supplied
  refine ⟨op.apply (block.args values), op.apply (block.args others), Operator.apply_alike alike op,
    readReporter_reads noCall reads (report_operator isOperator _), ?_⟩
  rw [eval, evalWith, ← isArgs]
  exact yields.bind (reportBlock_operator isOperator _ scene.awake)

theorem reporter_agrees (scene : Scene place params left right) {lower : Block → Lowering.Lowered Expr}
    (reporters : ReportersAgree foreign routine params left right holds bound lower)
    (inner : block.SlotsHold place.target holds) (isPlain : block.isPlainReporter = true) {expr : Expr}
    (lowered : Lowering.reporter place (Lowering.input place lower block) block = .ok expr)
    (supplied : routine.Supplies expr.helperCalls) :
    Agree foreign routine params left right (bound + 1)
      (fun depth => readReporter foreign depth id block) expr := by
  unfold Block.isPlainReporter at isPlain
  split at isPlain
  next shape isShape =>
    obtain ⟨fits, hasNumber⟩ := Bool.and_eq_true_iff.mp isPlain
    have isBlockShape := isShape
    unfold Shape.ofReporter? at isShape
    cases Lowering.reporter_eq_ok.mp lowered with
    | number form isContent =>
        rw [form] at isShape
        obtain rfl := Option.some.inj isShape
        exact number_agrees form fits isContent
    | noNumber form missing =>
        rw [(number_of_ofOpcode form).1, missing] at hasNumber
        cases hasNumber
    | text form =>
        rw [form] at isShape
        obtain rfl := Option.some.inj isShape
        exact text_agrees form fits
    | param form =>
        rw [form] at isShape
        obtain rfl := Option.some.inj isShape
        exact param_agrees scene form fits
    | var form named =>
        rw [form] at isShape
        obtain rfl := Option.some.inj isShape
        exact var_agrees scene form fits named
    | builtin form filled =>
        rw [form] at isShape
        obtain rfl := Option.some.inj isShape
        rw [Expr.helperCalls] at supplied
        exact builtin_agrees scene reporters inner form fits filled supplied
    | helper form filled =>
        rw [form] at isShape
        dsimp only at isShape
        split at isShape
        next => cases isShape
        next other =>
          obtain rfl := Option.some.inj isShape
          exact helper_agrees scene reporters inner form other fits filled supplied
    | block form filled =>
        rw [Expr.helperCalls] at supplied
        exact called_agrees scene reporters inner form isBlockShape fits filled supplied
  next => cases isPlain

/-- By induction on how deep reporters are nested: each agrees with its step code if those in its slots
do. -/
theorem reported_agrees (scene : Scene place params left right) (down : place.target.GoesDown holds)
    (depth : Nat) :
    ReportersAgree foreign routine params left right holds depth (Lowering.reported place depth) := by
  induction depth with
  | zero =>
      intro id block expr _ lowered _
      cases lowered
  | succ depth ih =>
      intro id block expr held lowered supplied
      exact reporter_agrees scene ih (down.slots block held) (down.plain block held) lowered supplied

end

/-! ## Trees and targets -/

/-- A slot that is not there holds nothing. -/
theorem Block.slotHolds_of_stored {target : Target} {holds : Block → Prop} {block : Block} {slot : String}
    (stored : slot ∈ block.inputs.keys → block.SlotHolds target holds slot) :
    block.SlotHolds target holds slot := by
  cases held : block.input? slot with
  | none =>
      refine ⟨by simp [Block.plainLiteral, held], fun id isHeld => ?_⟩
      simp [Block.inputBlock?, held] at isHeld
  | some content => exact stored (Block.mem_keys_of_input? held)

theorem Target.PlainTree.goesDown (target : Target) : target.GoesDown target.PlainTree where
  plain := by
    rintro block ⟨isPlain, -, -⟩
    exact isPlain
  slots := by
    rintro block ⟨-, literals, reporters⟩ slot -
    exact Block.slotHolds_of_stored fun stored => ⟨literals slot stored, reporters slot stored⟩

namespace Target.Plain

variable {target : Target} (plain : target.Plain)

include plain

/-- What stands in the slots of a block of a plain target. -/
theorem slotsHold {id : String} {block : Block} (found : target.block? id = some block) :
    block.SlotsHold target target.HasReporter := by
  intro slot notStack
  have listed := Target.mem_blockList_of_block? found
  refine Block.slotHolds_of_stored fun stored => ⟨plain.literals _ listed slot stored, ?_⟩
  intro inner isHeld reporter isReporter
  exact ⟨plain.reporters _ listed slot stored notStack inner isHeld reporter isReporter, inner, isReporter⟩

theorem goesDown : target.GoesDown target.HasReporter where
  plain := fun block held => held.1
  slots := fun block held => by
    obtain ⟨-, id, found⟩ := held
    exact plain.slotsHold found

end Target.Plain

end StepCode
