import StepCode.Routine.Evaluate

/-!
# What evaluation is made of

Evaluation reads the host and the clock, runs blocks that report, and puts computations one behind the
other.  It fails by itself where a helper is missing, or too many are open.  A property of computations
that holds of the former and is kept by the latter holds of every evaluation, if it allows those
failures that can come about.
-/

namespace StepCode

/-- A property that holds of all computations which evaluation is made of.  Of the failures it need
hold only of those that `fails` allows. -/
structure Evaluative (foreign : Foreign) (fails : RunError → Prop)
    (good : (α : Type) → Act α → Prop) : Prop where
  pure : ∀ {α : Type} (value : α), good α (Pure.pure value)
  throw : ∀ {α : Type} {error : RunError}, fails error → good α (MonadExcept.throw error)
  get : good Turn MonadState.get
  elapsed : good Float Act.elapsed
  bind : ∀ {α β : Type} {act : Act α} {next : α → Act β}, good α act →
    (∀ value, good β (next value)) → good β (act >>= next)
  report : ∀ opcode args, good Value (reportBlock foreign opcode args)

/-! ## Failures -/

namespace Routine

/-- The routine carries the helpers of these names, or may fail for lack of them. -/
def Serves (routine : Routine) (fails : RunError → Prop) (names : List String) : Prop :=
  ∀ name ∈ names, routine.helpers.contains name = true ∨ fails (.unknownHelper name)

/-- The routine serves its own helpers, and may fail because too many are open. -/
structure Ready (routine : Routine) (fails : RunError → Prop) : Prop where
  deep : ∀ name, fails (.helperDepth name)
  bodies : ∀ name helper, routine.helpers.get? name = some helper →
    routine.Serves fails helper.body.helperCalls

section

variable {routine : Routine} {fails : RunError → Prop} {names others : List String}

theorem serves_append :
    routine.Serves fails (names ++ others) ↔ routine.Serves fails names ∧ routine.Serves fails others :=
  List.forall_mem_append

/-- If every failure is allowed, no helper need be there. -/
theorem serves_of_allowed (routine : Routine) (names : List String) :
    routine.Serves (fun _ => True) names :=
  fun _ _ => .inr trivial

theorem ready_of_allowed (routine : Routine) : routine.Ready (fun _ => True) :=
  ⟨fun _ => trivial, fun _ _ _ => serves_of_allowed routine _⟩

end

end Routine

/-! ## Evaluation -/

/-- Helper bodies that the routine serves have the property. -/
def Inner.Has (routine : Routine) (fails : RunError → Prop) (good : (α : Type) → Act α → Prop)
    (inner : Inner) : Prop :=
  ∀ enter, inner = some enter → ∀ params expr, routine.Serves fails expr.helperCalls →
    good Value (enter params expr)

namespace Evaluative

section

variable {foreign : Foreign} {fails : RunError → Prop} {good : (α : Type) → Act α → Prop}
  {routine : Routine} {inner : Inner} {params : Table Value}

theorem helper (closed : Evaluative foreign fails good) (ready : routine.Ready fails)
    (has : inner.Has routine fails good) {name : String} {args : List Expr}
    (serves : routine.Serves fails [name])
    (first : ∀ count, good (List Value) (evalFirst foreign routine inner params count args)) :
    good Value (evalWith foreign routine inner params (.helper name args)) := by
  unfold evalWith
  split
  next missing =>
    have lacks : ¬ routine.helpers.contains name = true := by simp [Table.contains, missing]
    exact closed.throw ((serves name List.mem_cons_self).resolve_left lacks)
  · exact closed.throw (ready.deep name)
  next helper enter found =>
    refine closed.bind (first helper.params.length) fun _ => ?_
    exact has enter rfl _ helper.body (ready.bodies name helper found)

mutual

theorem evalWith (closed : Evaluative foreign fails good) (ready : routine.Ready fails)
    (has : inner.Has routine fails good) (expr : Expr) (serves : routine.Serves fails expr.helperCalls) :
    good Value (StepCode.evalWith foreign routine inner params expr) := by
  match expr with
  | .number x | .text s | .bool b | .param name =>
      rw [StepCode.evalWith]
      exact closed.pure _
  | .var name =>
      rw [StepCode.evalWith]
      exact closed.bind closed.get fun _ => closed.pure _
  | .helper name args =>
      rw [Expr.helperCalls, ← List.singleton_append, Routine.serves_append] at serves
      exact closed.helper ready has serves.1 fun count => closed.evalFirst ready has count args serves.2
  | .report opcode args =>
      rw [StepCode.evalWith]
      exact closed.bind (closed.evalArgs ready has args serves) fun _ => closed.report _ _
  | .choose cond yes no =>
      rw [Expr.helperCalls, Routine.serves_append, Routine.serves_append] at serves
      rw [StepCode.evalWith]
      refine closed.bind (closed.evalWith ready has cond serves.1.1) fun _ => ?_
      split
      · exact closed.evalWith ready has yes serves.1.2
      · exact closed.evalWith ready has no serves.2
  | .builtin op args =>
      unfold StepCode.evalWith
      split
      · refine closed.bind (closed.evalOperand ready has 0 args serves) fun _ => ?_
        split
        · exact closed.bind (closed.evalOperand ready has 1 args serves) fun _ => closed.pure _
        · exact closed.pure _
      · refine closed.bind (closed.evalOperand ready has 0 args serves) fun _ => ?_
        split
        · exact closed.pure _
        · exact closed.bind (closed.evalOperand ready has 1 args serves) fun _ => closed.pure _
      · exact closed.bind (closed.evalList ready has args serves) fun _ =>
          closed.bind closed.elapsed fun _ => closed.pure _
      · exact closed.bind (closed.evalList ready has args serves) fun _ => closed.pure _

theorem evalList (closed : Evaluative foreign fails good) (ready : routine.Ready fails)
    (has : inner.Has routine fails good) (args : List Expr)
    (serves : routine.Serves fails (helperCallsList args)) :
    good (List Value) (StepCode.evalList foreign routine inner params args) := by
  match args with
  | [] =>
      rw [StepCode.evalList]
      exact closed.pure _
  | arg :: rest =>
      rw [helperCallsList, Routine.serves_append] at serves
      rw [StepCode.evalList]
      refine closed.bind (closed.evalWith ready has arg serves.1) fun _ => ?_
      exact closed.bind (closed.evalList ready has rest serves.2) fun _ => closed.pure _

theorem evalFirst (closed : Evaluative foreign fails good) (ready : routine.Ready fails)
    (has : inner.Has routine fails good) (count : Nat) (args : List Expr)
    (serves : routine.Serves fails (helperCallsList args)) :
    good (List Value) (StepCode.evalFirst foreign routine inner params count args) := by
  match args, count with
  | [], _ =>
      rw [StepCode.evalFirst]
      exact closed.pure _
  | _ :: _, 0 =>
      rw [StepCode.evalFirst]
      exact closed.pure _
  | arg :: rest, count + 1 =>
      rw [helperCallsList, Routine.serves_append] at serves
      rw [StepCode.evalFirst]
      refine closed.bind (closed.evalWith ready has arg serves.1) fun _ => ?_
      exact closed.bind (closed.evalFirst ready has count rest serves.2) fun _ => closed.pure _

theorem evalOperand (closed : Evaluative foreign fails good) (ready : routine.Ready fails)
    (has : inner.Has routine fails good) (index : Nat) (args : List Expr)
    (serves : routine.Serves fails (helperCallsList args)) :
    good Value (StepCode.evalOperand foreign routine inner params index args) := by
  match args, index with
  | [], _ =>
      rw [StepCode.evalOperand]
      exact closed.pure _
  | arg :: _, 0 =>
      rw [helperCallsList, Routine.serves_append] at serves
      rw [StepCode.evalOperand]
      exact closed.evalWith ready has arg serves.1
  | _ :: rest, index + 1 =>
      rw [helperCallsList, Routine.serves_append] at serves
      rw [StepCode.evalOperand]
      exact closed.evalOperand ready has index rest serves.2

theorem evalArgs (closed : Evaluative foreign fails good) (ready : routine.Ready fails)
    (has : inner.Has routine fails good) (args : List (String × Expr))
    (serves : routine.Serves fails (helperCallsArgs args)) :
    good (List (String × Value)) (StepCode.evalArgs foreign routine inner params args) := by
  match args with
  | [] =>
      rw [StepCode.evalArgs]
      exact closed.pure _
  | (name, arg) :: rest =>
      rw [helperCallsArgs, Routine.serves_append] at serves
      rw [StepCode.evalArgs]
      refine closed.bind (closed.evalWith ready has arg serves.1) fun _ => ?_
      exact closed.bind (closed.evalArgs ready has rest serves.2) fun _ => closed.pure _

end

/-- However many helper bodies may be open. -/
theorem innerEval (closed : Evaluative foreign fails good) (ready : routine.Ready fails) (room : Nat) :
    (StepCode.innerEval foreign routine room).Has routine fails good := by
  induction room with
  | zero =>
      intro enter isNone
      cases isNone
  | succ room ih =>
      intro enter isSome params expr serves
      obtain rfl := Option.some.inj isSome
      exact closed.evalWith ready ih expr serves

end

/-! ### Properties that allow every failure -/

section

variable {foreign : Foreign} {good : (α : Type) → Act α → Prop} {routine : Routine}
  {params : Table Value}

theorem eval (closed : Evaluative foreign (fun _ => True) good) (expr : Expr) :
    good Value (StepCode.eval foreign routine params expr) :=
  have ready := routine.ready_of_allowed
  closed.evalWith ready (closed.innerEval ready _) expr (routine.serves_of_allowed _)

theorem evalNamed (closed : Evaluative foreign (fun _ => True) good) (args : List (String × Expr)) :
    good (Table Value) (StepCode.evalNamed foreign routine params args) :=
  have ready := routine.ready_of_allowed
  have values := closed.evalArgs ready (closed.innerEval ready _) args (routine.serves_of_allowed _)
  closed.bind values fun _ => closed.pure _

theorem mapM {α β : Type} (closed : Evaluative foreign (fun _ => True) good) {f : α → Act β}
    (each : ∀ item, good β (f item)) (items : List α) : good (List β) (items.mapM f) := by
  induction items with
  | nil => exact closed.pure _
  | cons item rest ih =>
      rw [List.mapM_cons]
      exact closed.bind (each item) fun _ => closed.bind ih fun _ => closed.pure _

end

end Evaluative

end StepCode
