import StepCode.Script.Basic

/-!
# What step code is made of

The expressions that statements hold, and the expressions within an expression.  A helper is among the
helper calls of step code exactly if a call of it occurs there.
-/

namespace StepCode

/-! ## Expressions -/

/-- The expressions that an expression is put together from. -/
def Expr.operands : Expr → List Expr
  | .helper _ args => args
  | .report _ args => args.map (·.2)
  | .choose cond yes no => [cond, yes, no]
  | .builtin _ args => args
  | .number _ | .text _ | .bool _ | .var _ | .param _ => []

/-- `part` is the expression itself or occurs within it. -/
inductive Expr.Within (part : Expr) : Expr → Prop
  | self : Within part part
  | operand {whole operand : Expr} (mem : operand ∈ whole.operands) (within : Within part operand) :
      Within part whole

theorem Expr.Within.trans {part middle whole : Expr} (inner : part.Within middle)
    (outer : middle.Within whole) : part.Within whole := by
  induction outer with
  | self => exact inner
  | operand mem _ ih => exact .operand mem ih

/-- The helper that an expression calls itself, apart from its operands. -/
def Expr.callee? : Expr → Option String
  | .helper name _ => some name
  | _ => none

theorem mem_helperCallsList {name : String} {exprs : List Expr} :
    name ∈ helperCallsList exprs ↔ ∃ expr ∈ exprs, name ∈ expr.helperCalls := by
  induction exprs with
  | nil => simp [helperCallsList]
  | cons expr rest ih => simp [helperCallsList, ih]

theorem mem_helperCallsArgs {name : String} {args : List (String × Expr)} :
    name ∈ helperCallsArgs args ↔ ∃ expr ∈ args.map (·.2), name ∈ expr.helperCalls := by
  induction args with
  | nil => simp [helperCallsArgs]
  | cons arg rest ih =>
      simp only [helperCallsArgs, List.mem_append, ih, List.map_cons, List.mem_cons, exists_eq_or_imp]

/-- An expression calls its own helper and those that its operands call. -/
theorem Expr.mem_helperCalls_iff {name : String} (expr : Expr) :
    name ∈ expr.helperCalls ↔
      expr.callee? = some name ∨ ∃ operand ∈ expr.operands, name ∈ operand.helperCalls := by
  cases expr with
  | helper callee args => simp [helperCalls, callee?, operands, mem_helperCallsList, eq_comm]
  | report opcode args =>
      rw [helperCalls, mem_helperCallsArgs]
      simp only [callee?, operands, reduceCtorEq, false_or]
  | choose cond yes no => simp [helperCalls, callee?, operands]
  | builtin op args => simp [helperCalls, callee?, operands, mem_helperCallsList]
  | number x => simp [helperCalls, callee?, operands]
  | text s => simp [helperCalls, callee?, operands]
  | bool b => simp [helperCalls, callee?, operands]
  | var name => simp [helperCalls, callee?, operands]
  | param name => simp [helperCalls, callee?, operands]

theorem Expr.sizeOf_operand_lt {operand expr : Expr} (mem : operand ∈ expr.operands) :
    sizeOf operand < sizeOf expr := by
  cases expr with
  | helper callee args =>
      have : sizeOf operand < sizeOf args := List.sizeOf_lt_of_mem mem
      simp only [Expr.helper.sizeOf_spec]
      omega
  | report opcode args =>
      obtain ⟨arg, inArgs, rfl⟩ := List.mem_map.mp mem
      have := List.sizeOf_lt_of_mem inArgs
      have : sizeOf arg.2 < sizeOf arg := by
        obtain ⟨name, value⟩ := arg
        simp only [Prod.mk.sizeOf_spec]
        omega
      simp only [Expr.report.sizeOf_spec]
      omega
  | choose cond yes no =>
      simp only [operands, List.mem_cons, List.not_mem_nil, or_false] at mem
      simp only [Expr.choose.sizeOf_spec]
      rcases mem with rfl | rfl | rfl <;> omega
  | builtin op args =>
      have : sizeOf operand < sizeOf args := List.sizeOf_lt_of_mem mem
      simp only [Expr.builtin.sizeOf_spec]
      omega
  | number x => simp [operands] at mem
  | text s => simp [operands] at mem
  | bool b => simp [operands] at mem
  | var name => simp [operands] at mem
  | param name => simp [operands] at mem

/-- A helper is among the helper calls of an expression if a call of it occurs within it. -/
theorem Expr.mem_helperCalls {name : String} (expr : Expr) :
    name ∈ expr.helperCalls ↔ ∃ args, (Expr.helper name args).Within expr := by
  constructor
  · intro called
    rcases expr.mem_helperCalls_iff.mp called with own | ⟨operand, mem, inOperand⟩
    · cases expr with
      | helper callee args =>
          obtain rfl := Option.some.inj own
          exact ⟨args, .self⟩
      | _ => cases own
    · obtain ⟨args, within⟩ := operand.mem_helperCalls.mp inOperand
      exact ⟨args, .operand mem within⟩
  · rintro ⟨args, within⟩
    induction within with
    | self => exact (mem_helperCalls_iff _).mpr (.inl rfl)
    | operand mem _ ih => exact (mem_helperCalls_iff _).mpr (.inr ⟨_, mem, ih⟩)
  termination_by sizeOf expr
  decreasing_by exact Expr.sizeOf_operand_lt mem

/-! ## Statements -/

mutual

/-- The expressions that a statement holds, those of its bodies included. -/
def Stmt.exprs : Stmt → List Expr
  | .set _ value => [value]
  | .change _ amount => [amount]
  | .op _ args => args.map (·.2)
  | .call _ args => args
  | .yield => []
  | .times count body => count :: bodyExprs body
  | .forever body => bodyExprs body
  | .whileTrue cond body => cond :: bodyExprs body
  | .untilTrue cond body => cond :: bodyExprs body
  | .ifElse cond yes no => cond :: (bodyExprs yes ++ bodyExprs no)
  | .ret value => value.toList

def bodyExprs : List Stmt → List Expr
  | [] => []
  | stmt :: rest => stmt.exprs ++ bodyExprs rest

end

/-- The expression occurs in the script. -/
def Script.Holds (script : Script) (part : Expr) : Prop :=
  ∃ expr ∈ bodyExprs script.body, part.Within expr

mutual

theorem Stmt.mem_helperCalls {name : String} :
    (stmt : Stmt) → (name ∈ stmt.helperCalls ↔ ∃ expr ∈ stmt.exprs, name ∈ expr.helperCalls)
  | .set var value => by simp [Stmt.helperCalls, Stmt.exprs]
  | .change var amount => by simp [Stmt.helperCalls, Stmt.exprs]
  | .op opcode args => by rw [Stmt.helperCalls, Stmt.exprs, mem_helperCallsArgs]
  | .call signature args => by simp [Stmt.helperCalls, Stmt.exprs, mem_helperCallsList]
  | .yield => by simp [Stmt.helperCalls, Stmt.exprs]
  | .times count body => by simp [Stmt.helperCalls, Stmt.exprs, mem_helperCallsBody body]
  | .forever body => by simp [Stmt.helperCalls, Stmt.exprs, mem_helperCallsBody body]
  | .whileTrue cond body => by simp [Stmt.helperCalls, Stmt.exprs, mem_helperCallsBody body]
  | .untilTrue cond body => by simp [Stmt.helperCalls, Stmt.exprs, mem_helperCallsBody body]
  | .ifElse cond yes no => by
      simp [Stmt.helperCalls, Stmt.exprs, mem_helperCallsBody yes, mem_helperCallsBody no, or_and_right,
        exists_or]
  | .ret none => by simp [Stmt.helperCalls, Stmt.exprs]
  | .ret (some value) => by simp [Stmt.helperCalls, Stmt.exprs]

theorem mem_helperCallsBody {name : String} : (stmts : List Stmt) →
    (name ∈ helperCallsBody stmts ↔ ∃ expr ∈ bodyExprs stmts, name ∈ expr.helperCalls)
  | [] => by simp [helperCallsBody, bodyExprs]
  | stmt :: rest => by
      simp [helperCallsBody, bodyExprs, stmt.mem_helperCalls, mem_helperCallsBody rest, or_and_right,
        exists_or]

end

/-- A helper is among the helper calls of a script if a call of it occurs there. -/
theorem Script.mem_helperCalls {name : String} (script : Script) :
    name ∈ helperCallsBody script.body ↔ ∃ args, script.Holds (.helper name args) := by
  simp only [mem_helperCallsBody, Expr.mem_helperCalls, Script.Holds]
  constructor
  · rintro ⟨expr, mem, args, within⟩
    exact ⟨args, expr, mem, within⟩
  · rintro ⟨args, expr, mem, within⟩
    exact ⟨expr, mem, args, within⟩

end StepCode
