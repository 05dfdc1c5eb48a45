import StepCode.Routine.Evaluate

/-!
# How deep helpers are nested

The evaluation of an expression is told here with its recursive calls left open: an operand is evaluated
where the expression stands, and the body of a helper one level deeper.  Each evaluation makes finitely
many calls, however the helpers call each other, since no body is entered more than `helperLimit` deep.
-/

namespace StepCode

/-! ## Evaluation with its calls left open -/

/-- What an evaluation does up to the calls it makes.  Before a helper is called, it asks for `room` for
a body one level deeper than `depth`. -/
inductive Plan (α : Type) where
  | done (value : α)
  | fail (error : RunError)
  | look (next : Turn → Plan α)
  | elapsed (next : Float → Plan α)
  | report (opcode : String) (args : Table Value) (next : Value → Plan α)
  | room (depth : Nat) (name : String) (next : Plan α)
  | call (depth : Nat) (params : Table Value) (expr : Expr) (next : Value → Plan α)

namespace Plan

variable {α β : Type}

protected def bind (plan : Plan α) (rest : α → Plan β) : Plan β :=
  match plan with
  | .done value => rest value
  | .fail error => .fail error
  | .look next => .look fun turn => (next turn).bind rest
  | .elapsed next => .elapsed fun age => (next age).bind rest
  | .report opcode args next => .report opcode args fun value => (next value).bind rest
  | .room depth name next => .room depth name (next.bind rest)
  | .call depth params expr next => .call depth params expr fun value => (next value).bind rest

instance : Monad Plan where
  pure := .done
  bind := Plan.bind

/-- The value of an expression, `depth` helper bodies deep. -/
def value (depth : Nat) (params : Table Value) (expr : Expr) : Plan Value :=
  .call depth params expr .done

def values (depth : Nat) (params : Table Value) : List Expr → Plan (List Value)
  | [] => return []
  | arg :: rest => do
      let first ← value depth params arg
      let others ← values depth params rest
      return first :: others

def named (depth : Nat) (params : Table Value) :
    List (String × Expr) → Plan (List (String × Value))
  | [] => return []
  | (name, arg) :: rest => do
      let first ← value depth params arg
      let others ← named depth params rest
      return (name, first) :: others

/-- The value of one operand; empty if there is none. -/
def operand (depth : Nat) (params : Table Value) (index : Nat) (args : List Expr) : Plan Value :=
  match args[index]? with
  | some arg => value depth params arg
  | none => return .empty

end Plan

open Plan in
/-- What the evaluation of an expression does, `depth` helper bodies deep. -/
def Expr.plan (routine : Routine) (depth : Nat) (params : Table Value) : Expr → Plan Value
  | .number x => return .number x
  | .text s => return .text s
  | .bool b => return .bool b
  | .var name => .look fun turn => return turn.host.getVariable turn.thread.target name
  | .param name => return (params.get? name).getD .empty
  | .helper name args =>
      match routine.helpers.get? name with
      | none => .fail (.unknownHelper name)
      | some definition => .room depth name do
          let values ← values depth params (args.take definition.params.length)
          value (depth + 1) (bindParams definition.params values) definition.body
  | .report opcode args => do
      let args ← named depth params args
      .report opcode (.ofList args) .done
  | .choose cond yes no => do
      if (← value depth params cond).toBool then value depth params yes
      else value depth params no
  | .builtin op args => do
      match op with
      | .and =>
          if (← operand depth params 0 args).toBool then
            return .bool (← operand depth params 1 args).toBool
          else return .bool false
      | .or =>
          if (← operand depth params 0 args).toBool then return .bool true
          else return .bool (← operand depth params 1 args).toBool
      | .elapsed =>
          let _ ← values depth params args
          .elapsed fun age => return .number age
      | op => return op.apply (← values depth params args)

/-- Evaluation by its calls: their number, and how deep the deepest one is nested.  There is room for
another helper body where it is `allowed`; where it is not, the evaluation fails. -/
inductive Plan.Runs (foreign : Foreign) (routine : Routine) (allowed : Nat → Prop) :
    {α : Type} → Plan α → Turn → (calls deepest : Nat) → Except RunError α × Turn → Prop
  | done {α : Type} {value : α} {turn : Turn} :
      Runs foreign routine allowed (.done value) turn 0 0 (.ok value, turn)
  | fail {α : Type} {error : RunError} {turn : Turn} :
      Runs foreign routine allowed (.fail error : Plan α) turn 0 0 (.error error, turn)
  | look {α : Type} {next : Turn → Plan α} {turn : Turn} {calls deepest : Nat}
      {outcome : Except RunError α × Turn}
      (rest : Runs foreign routine allowed (next turn) turn calls deepest outcome) :
      Runs foreign routine allowed (.look next) turn calls deepest outcome
  | elapsed {α : Type} {next : Float → Plan α} {turn middle : Turn} {age : Float} {calls deepest : Nat}
      {outcome : Except RunError α × Turn} (read : Act.elapsed.run.run turn = (.ok age, middle))
      (rest : Runs foreign routine allowed (next age) middle calls deepest outcome) :
      Runs foreign routine allowed (.elapsed next) turn calls deepest outcome
  | reported {α : Type} {opcode : String} {args : Table Value} {next : Value → Plan α}
      {turn middle : Turn} {value : Value} {calls deepest : Nat} {outcome : Except RunError α × Turn}
      (ran : (reportBlock foreign opcode args).run.run turn = (.ok value, middle))
      (rest : Runs foreign routine allowed (next value) middle calls deepest outcome) :
      Runs foreign routine allowed (.report opcode args next) turn calls deepest outcome
  | reportFailed {α : Type} {opcode : String} {args : Table Value} {next : Value → Plan α}
      {turn last : Turn} {error : RunError}
      (ran : (reportBlock foreign opcode args).run.run turn = (.error error, last)) :
      Runs foreign routine allowed (.report opcode args next) turn 0 0 (.error error, last)
  | room {α : Type} {depth : Nat} {name : String} {next : Plan α} {turn : Turn} {calls deepest : Nat}
      {outcome : Except RunError α × Turn} (isRoom : allowed depth)
      (rest : Runs foreign routine allowed next turn calls deepest outcome) :
      Runs foreign routine allowed (.room depth name next) turn calls deepest outcome
  | noRoom {α : Type} {depth : Nat} {name : String} {next : Plan α} {turn : Turn}
      (isFull : ¬ allowed depth) :
      Runs foreign routine allowed (.room depth name next) turn 0 0 (.error (.helperDepth name), turn)
  | called {α : Type} {depth : Nat} {params : Table Value} {expr : Expr} {next : Value → Plan α}
      {turn middle : Turn} {value : Value} {calls deepest more deeper : Nat}
      {outcome : Except RunError α × Turn}
      (callee : Runs foreign routine allowed (expr.plan routine depth params) turn calls deepest
        (.ok value, middle))
      (rest : Runs foreign routine allowed (next value) middle more deeper outcome) :
      Runs foreign routine allowed (.call depth params expr next) turn (calls + 1 + more)
        (max (max depth deepest) deeper) outcome
  | callFailed {α : Type} {depth : Nat} {params : Table Value} {expr : Expr} {next : Value → Plan α}
      {turn last : Turn} {error : RunError} {calls deepest : Nat}
      (callee : Runs foreign routine allowed (expr.plan routine depth params) turn calls deepest
        (.error error, last)) :
      Runs foreign routine allowed (.call depth params expr next) turn (calls + 1)
        (max depth deepest) (.error error, last)

namespace Plan.Runs

variable {foreign : Foreign} {routine : Routine} {allowed : Nat → Prop} {α β : Type}
  {plan : Plan α} {turn : Turn} {calls deepest : Nat} {outcome : Except RunError α × Turn}

/-- An evaluation comes out in one way only. -/
theorem unique (runs : plan.Runs foreign routine allowed turn calls deepest outcome)
    {calls' deepest' : Nat} {outcome' : Except RunError α × Turn}
    (again : plan.Runs foreign routine allowed turn calls' deepest' outcome') :
    calls' = calls ∧ deepest' = deepest ∧ outcome' = outcome := by
  induction runs generalizing calls' deepest' with
  | done =>
      cases again
      exact ⟨rfl, rfl, rfl⟩
  | fail =>
      cases again
      exact ⟨rfl, rfl, rfl⟩
  | look _ ih =>
      cases again with
      | look rest => exact ih rest
  | elapsed read _ ih =>
      cases again with
      | elapsed read' rest =>
          obtain ⟨isAge, rfl⟩ := Prod.mk.inj (read.symm.trans read')
          obtain rfl := Except.ok.inj isAge
          exact ih rest
  | reported ran _ ih =>
      cases again with
      | reported ran' rest =>
          obtain ⟨isValue, rfl⟩ := Prod.mk.inj (ran.symm.trans ran')
          obtain rfl := Except.ok.inj isValue
          exact ih rest
      | reportFailed ran' => cases ran.symm.trans ran'
  | reportFailed ran =>
      cases again with
      | reported ran' _ => cases ran.symm.trans ran'
      | reportFailed ran' =>
          obtain ⟨isError, rfl⟩ := Prod.mk.inj (ran.symm.trans ran')
          obtain rfl := Except.error.inj isError
          exact ⟨rfl, rfl, rfl⟩
  | room isRoom _ ih =>
      cases again with
      | room _ rest => exact ih rest
      | noRoom isFull => exact (isFull isRoom).elim
  | noRoom isFull =>
      cases again with
      | room isRoom _ => exact (isFull isRoom).elim
      | noRoom => exact ⟨rfl, rfl, rfl⟩
  | called _ _ ih ihRest =>
      cases again with
      | called callee rest =>
          obtain ⟨rfl, rfl, same⟩ := ih callee
          obtain ⟨isValue, rfl⟩ := Prod.mk.inj same
          obtain rfl := Except.ok.inj isValue
          obtain ⟨rfl, rfl, rfl⟩ := ihRest rest
          exact ⟨rfl, rfl, rfl⟩
      | callFailed callee => cases (ih callee).2.2
  | callFailed _ ih =>
      cases again with
      | called callee _ => cases (ih callee).2.2
      | callFailed callee =>
          obtain ⟨rfl, rfl, same⟩ := ih callee
          obtain ⟨isError, rfl⟩ := Prod.mk.inj same
          obtain rfl := Except.error.inj isError
          exact ⟨rfl, rfl, rfl⟩

/-- How an evaluation goes on behind a first part that has come out: not at all, if that has failed. -/
def Onward (foreign : Foreign) (routine : Routine) (allowed : Nat → Prop) (next : α → Plan β)
    (more deeper : Nat) (outcome : Except RunError β × Turn) : Except RunError α × Turn → Prop
  | (.ok value, middle) => (next value).Runs foreign routine allowed middle more deeper outcome
  | (.error error, last) => more = 0 ∧ deeper = 0 ∧ outcome = (.error error, last)

theorem bind {next : α → Plan β} {more deeper : Nat} {last : Except RunError β × Turn}
    (first : plan.Runs foreign routine allowed turn calls deepest outcome)
    (rest : Onward foreign routine allowed next more deeper last outcome) :
    (plan >>= next).Runs foreign routine allowed turn (calls + more) (max deepest deeper) last := by
  induction first with
  | done =>
      rw [Nat.zero_add, Nat.zero_max]
      exact rest
  | fail =>
      obtain ⟨rfl, rfl, rfl⟩ := rest
      exact .fail
  | look _ ih => exact .look (ih rest)
  | elapsed read _ ih => exact .elapsed read (ih rest)
  | reported ran _ ih => exact .reported ran (ih rest)
  | reportFailed ran =>
      obtain ⟨rfl, rfl, rfl⟩ := rest
      exact .reportFailed ran
  | room isRoom _ ih => exact .room isRoom (ih rest)
  | noRoom isFull =>
      obtain ⟨rfl, rfl, rfl⟩ := rest
      exact .noRoom isFull
  | called callee _ _ ih =>
      rw [Nat.add_assoc, Nat.max_assoc]
      exact .called callee (ih rest)
  | callFailed callee =>
      obtain ⟨rfl, rfl, rfl⟩ := rest
      rw [Nat.add_zero, Nat.max_zero]
      exact .callFailed callee

end Plan.Runs

/-! ## Every evaluation comes to its end -/

namespace Plan

variable {foreign : Foreign} {routine : Routine} {α β : Type}

/-- There is room for a body as long as fewer than `helperLimit` are open. -/
def HasRoom (depth : Nat) : Prop := depth < helperLimit

/-- The computation is what comes of the plan, within the limit and after finitely many calls. -/
def Realizes (foreign : Foreign) (routine : Routine) (plan : Plan α) (act : Act α) : Prop :=
  ∀ turn, ∃ calls deepest, deepest ≤ helperLimit ∧
    plan.Runs foreign routine HasRoom turn calls deepest (act.run.run turn)

namespace Realizes

variable {plan : Plan α} {act : Act α}

theorem done {value : α} : Realizes foreign routine (.done value) (pure value) :=
  fun _ => ⟨0, 0, Nat.zero_le _, .done⟩

theorem fail {error : RunError} : Realizes foreign routine (.fail error : Plan α) (throw error) :=
  fun _ => ⟨0, 0, Nat.zero_le _, .fail⟩

theorem look {next : Turn → Plan α} {rest : Turn → Act α}
    (each : ∀ turn, Realizes foreign routine (next turn) (rest turn)) :
    Realizes foreign routine (.look next) (get >>= rest) := by
  intro turn
  obtain ⟨calls, deepest, bound, runs⟩ := each turn turn
  exact ⟨calls, deepest, bound, .look runs⟩

theorem elapsed {next : Float → Plan α} {rest : Float → Act α}
    (each : ∀ age, Realizes foreign routine (next age) (rest age)) :
    Realizes foreign routine (.elapsed next) (Act.elapsed >>= rest) := by
  intro turn
  have read : Act.elapsed.run.run turn =
      (.ok (Host.milliseconds turn.readClock.host.tickAge), turn.readClock) := rfl
  obtain ⟨calls, deepest, bound, runs⟩ := each _ turn.readClock
  rw [ExceptT.run_bind, StateT.run_bind, read]
  exact ⟨calls, deepest, bound, .elapsed read runs⟩

theorem report (opcode : String) (args : Table Value) :
    Realizes foreign routine (.report opcode args .done) (reportBlock foreign opcode args) := by
  intro turn
  cases ran : (reportBlock foreign opcode args).run.run turn with
  | mk outcome last =>
      cases outcome with
      | ok value => exact ⟨0, 0, Nat.zero_le _, .reported ran .done⟩
      | error error => exact ⟨0, 0, Nat.zero_le _, .reportFailed ran⟩

theorem bind {next : α → Plan β} {rest : α → Act β} (first : Realizes foreign routine plan act)
    (each : ∀ value, Realizes foreign routine (next value) (rest value)) :
    Realizes foreign routine (plan >>= next) (act >>= rest) := by
  intro turn
  obtain ⟨calls, deepest, bound, runs⟩ := first turn
  rw [ExceptT.run_bind, StateT.run_bind]
  generalize act.run.run turn = came at runs
  obtain ⟨outcome, middle⟩ := came
  cases outcome with
  | error error => exact ⟨_, _, by simpa using bound, runs.bind ⟨rfl, rfl, rfl⟩⟩
  | ok value =>
      obtain ⟨more, deeper, bound', later⟩ := each value middle
      exact ⟨_, _, Nat.max_le.mpr ⟨bound, bound'⟩, runs.bind later⟩

theorem room {depth : Nat} {name : String} (isRoom : HasRoom depth)
    (rest : Realizes foreign routine plan act) : Realizes foreign routine (.room depth name plan) act := by
  intro turn
  obtain ⟨calls, deepest, bound, runs⟩ := rest turn
  exact ⟨calls, deepest, bound, .room isRoom runs⟩

theorem noRoom {depth : Nat} {name : String} (isFull : ¬ HasRoom depth) :
    Realizes foreign routine (.room depth name plan) (throw (.helperDepth name)) :=
  fun _ => ⟨0, 0, Nat.zero_le _, .noRoom isFull⟩

theorem value {depth : Nat} {params : Table Value} {expr : Expr} {act : Act Value}
    (inLimit : depth ≤ helperLimit)
    (callee : Realizes foreign routine (expr.plan routine depth params) act) :
    Realizes foreign routine (.value depth params expr) act := by
  intro turn
  obtain ⟨calls, deepest, bound, runs⟩ := callee turn
  generalize act.run.run turn = came at runs ⊢
  obtain ⟨outcome, last⟩ := came
  cases outcome with
  | ok value =>
      have inner : max (max depth deepest) 0 ≤ helperLimit := by omega
      exact ⟨_, _, inner, .called runs .done⟩
  | error error => exact ⟨_, _, Nat.max_le.mpr ⟨inLimit, bound⟩, .callFailed runs⟩

end Realizes

end Plan

section

variable {foreign : Foreign} {routine : Routine} {depth room : Nat} {params : Table Value}

open Plan

/-- Helper bodies that may be entered are evaluated one level deeper. -/
def BodiesRealized (foreign : Foreign) (routine : Routine) (depth room : Nat) : Prop :=
  ∀ enter, innerEval foreign routine room = some enter → ∀ params expr,
    Realizes foreign routine (expr.plan routine (depth + 1) params) (enter params expr)

theorem realizes_helper {name : String} {args : List Expr} (fits : depth + room = helperLimit)
    (bodies : BodiesRealized foreign routine depth room)
    (first : ∀ count, Realizes foreign routine (values depth params (args.take count))
      (evalFirst foreign routine (innerEval foreign routine room) params count args)) :
    Realizes foreign routine (Expr.plan routine depth params (.helper name args))
      (evalWith foreign routine (innerEval foreign routine room) params (.helper name args)) := by
  rw [Expr.plan]
  unfold evalWith
  cases routine.helpers.get? name with
  | none => exact .fail
  | some definition =>
      cases room with
      | zero => exact .noRoom (by unfold HasRoom; omega)
      | succ room =>
          refine .room (by unfold HasRoom; omega) (.bind (first _) fun _ => ?_)
          exact .value (by omega) (bodies _ rfl _ _)

theorem realizes_builtin {op : Builtin} {args : List Expr}
    (one : ∀ index, Realizes foreign routine (operand depth params index args)
      (evalOperand foreign routine (innerEval foreign routine room) params index args))
    (all : Realizes foreign routine (values depth params args)
      (evalList foreign routine (innerEval foreign routine room) params args)) :
    Realizes foreign routine (Expr.plan routine depth params (.builtin op args))
      (evalWith foreign routine (innerEval foreign routine room) params (.builtin op args)) := by
  unfold evalWith
  cases op with
  | and =>
      refine .bind (one 0) fun first => ?_
      cases first.toBool with
      | true => exact .bind (one 1) fun _ => .done
      | false => exact .done
  | or =>
      refine .bind (one 0) fun first => ?_
      cases first.toBool with
      | true => exact .done
      | false => exact .bind (one 1) fun _ => .done
  | elapsed => exact .bind all fun _ => .elapsed fun _ => .done
  | _ => exact .bind all fun _ => .done

mutual

theorem realizes_evalWith (fits : depth + room = helperLimit)
    (bodies : BodiesRealized foreign routine depth room) (expr : Expr) :
    Realizes foreign routine (expr.plan routine depth params)
      (evalWith foreign routine (innerEval foreign routine room) params expr) := by
  match expr with
  | .number x | .text s | .bool b | .param name =>
      rw [evalWith]
      exact .done
  | .var name =>
      rw [evalWith]
      exact .look fun _ => .done
  | .helper name args =>
      exact realizes_helper fits bodies fun count => realizes_evalFirst fits bodies count args
  | .report opcode args =>
      rw [evalWith]
      exact .bind (realizes_evalArgs fits bodies args) fun _ => .report _ _
  | .choose cond yes no =>
      rw [evalWith]
      refine .bind (realizes_value fits bodies cond) fun chosen => ?_
      cases chosen.toBool with
      | true => exact realizes_value fits bodies yes
      | false => exact realizes_value fits bodies no
  | .builtin op args =>
      exact realizes_builtin (fun index => realizes_evalOperand fits bodies index args)
        (realizes_evalList fits bodies args)

theorem realizes_value (fits : depth + room = helperLimit)
    (bodies : BodiesRealized foreign routine depth room) (expr : Expr) :
    Realizes foreign routine (value depth params expr)
      (evalWith foreign routine (innerEval foreign routine room) params expr) :=
  .value (by omega) (realizes_evalWith fits bodies expr)

theorem realizes_evalList (fits : depth + room = helperLimit)
    (bodies : BodiesRealized foreign routine depth room) (args : List Expr) :
    Realizes foreign routine (values depth params args)
      (evalList foreign routine (innerEval foreign routine room) params args) := by
  match args with
  | [] =>
      rw [evalList]
      exact .done
  | arg :: rest =>
      rw [evalList]
      refine .bind (realizes_value fits bodies arg) fun _ => ?_
      exact .bind (realizes_evalList fits bodies rest) fun _ => .done

theorem realizes_evalFirst (fits : depth + room = helperLimit)
    (bodies : BodiesRealized foreign routine depth room) (count : Nat) (args : List Expr) :
    Realizes foreign routine (values depth params (args.take count))
      (evalFirst foreign routine (innerEval foreign routine room) params count args) := by
  match args, count with
  | [], count =>
      rw [evalFirst, List.take_nil]
      exact .done
  | _ :: _, 0 =>
      rw [evalFirst]
      exact .done
  | arg :: rest, count + 1 =>
      rw [evalFirst]
      refine .bind (realizes_value fits bodies arg) fun _ => ?_
      exact .bind (realizes_evalFirst fits bodies count rest) fun _ => .done

theorem realizes_evalOperand (fits : depth + room = helperLimit)
    (bodies : BodiesRealized foreign routine depth room) (index : Nat) (args : List Expr) :
    Realizes foreign routine (operand depth params index args)
      (evalOperand foreign routine (innerEval foreign routine room) params index args) := by
  match args, index with
  | [], index =>
      rw [evalOperand]
      exact .done
  | arg :: _, 0 =>
      rw [evalOperand]
      exact realizes_value fits bodies arg
  | _ :: rest, index + 1 =>
      rw [evalOperand]
      exact realizes_evalOperand fits bodies index rest

theorem realizes_evalArgs (fits : depth + room = helperLimit)
    (bodies : BodiesRealized foreign routine depth room) (args : List (String × Expr)) :
    Realizes foreign routine (named depth params args)
      (evalArgs foreign routine (innerEval foreign routine room) params args) := by
  match args with
  | [] =>
      rw [evalArgs]
      exact .done
  | (name, arg) :: rest =>
      rw [evalArgs]
      refine .bind (realizes_value fits bodies arg) fun _ => ?_
      exact .bind (realizes_evalArgs fits bodies rest) fun _ => .done

end

/-- The room that is left decreases with every helper body, and within a body the expression does. -/
theorem bodiesRealized (fits : depth + room = helperLimit) :
    BodiesRealized foreign routine depth room := by
  induction room generalizing depth with
  | zero => exact nofun
  | succ room ih =>
      rintro _ ⟨⟩ params expr
      exact realizes_evalWith (by omega) (ih (by omega)) expr

theorem realizes_eval (expr : Expr) :
    Realizes foreign routine (value 0 params expr) (eval foreign routine params expr) :=
  realizes_value (Nat.zero_add _) (bodiesRealized (Nat.zero_add _)) expr

end

/-! ## What the limit is for -/

namespace Plan

variable {foreign : Foreign} {routine : Routine} {α : Type} {plan : Plan α} {act : Act α} {turn : Turn}
  {calls deepest : Nat} {outcome : Except RunError α × Turn}

/-- Evaluation without a limit, which need not come to an end. -/
def Anywhere (_depth : Nat) : Prop := True

/-- Evaluated without a limit, the plan comes to the call of a helper in the innermost of `helperLimit`
open bodies, so that one more body would have to be entered. -/
inductive Exceeds (foreign : Foreign) (routine : Routine) : {α : Type} → Plan α → Turn → Prop
  | look {α : Type} {next : Turn → Plan α} {turn : Turn}
      (rest : Exceeds foreign routine (next turn) turn) : Exceeds foreign routine (.look next) turn
  | elapsed {α : Type} {next : Float → Plan α} {turn middle : Turn} {age : Float}
      (read : Act.elapsed.run.run turn = (.ok age, middle))
      (rest : Exceeds foreign routine (next age) middle) :
      Exceeds foreign routine (.elapsed next) turn
  | reported {α : Type} {opcode : String} {args : Table Value} {next : Value → Plan α}
      {turn middle : Turn} {value : Value}
      (ran : (reportBlock foreign opcode args).run.run turn = (.ok value, middle))
      (rest : Exceeds foreign routine (next value) middle) :
      Exceeds foreign routine (.report opcode args next) turn
  | here {α : Type} {depth : Nat} {name : String} {next : Plan α} {turn : Turn}
      (isFull : ¬ HasRoom depth) : Exceeds foreign routine (.room depth name next) turn
  | inRoom {α : Type} {depth : Nat} {name : String} {next : Plan α} {turn : Turn}
      (rest : Exceeds foreign routine next turn) : Exceeds foreign routine (.room depth name next) turn
  | callee {α : Type} {depth : Nat} {params : Table Value} {expr : Expr} {next : Value → Plan α}
      {turn : Turn} (callee : Exceeds foreign routine (expr.plan routine depth params) turn) :
      Exceeds foreign routine (.call depth params expr next) turn
  | behind {α : Type} {depth : Nat} {params : Table Value} {expr : Expr} {next : Value → Plan α}
      {turn middle : Turn} {value : Value} {calls deepest : Nat}
      (callee : Runs foreign routine Anywhere (expr.plan routine depth params) turn calls deepest
        (.ok value, middle))
      (rest : Exceeds foreign routine (next value) middle) :
      Exceeds foreign routine (.call depth params expr next) turn

/-- The evaluation has failed for want of room. -/
def OutOfRoom (outcome : Except RunError α × Turn) : Prop :=
  ∃ name last, outcome = (.error (.helperDepth name), last)

/-- The limit changes nothing unless it is met. -/
theorem Runs.exceeds_or (runs : plan.Runs foreign routine HasRoom turn calls deepest outcome) :
    plan.Exceeds foreign routine turn ∧ OutOfRoom outcome ∨
      plan.Runs foreign routine Anywhere turn calls deepest outcome := by
  induction runs with
  | done => exact .inr .done
  | fail => exact .inr .fail
  | look _ ih => exact ih.imp (fun met => ⟨.look met.1, met.2⟩) .look
  | elapsed read _ ih => exact ih.imp (fun met => ⟨.elapsed read met.1, met.2⟩) (.elapsed read)
  | reported ran _ ih => exact ih.imp (fun met => ⟨.reported ran met.1, met.2⟩) (.reported ran)
  | reportFailed ran => exact .inr (.reportFailed ran)
  | room _ _ ih => exact ih.imp (fun met => ⟨.inRoom met.1, met.2⟩) (.room trivial)
  | noRoom isFull => exact .inl ⟨.here isFull, _, _, rfl⟩
  | called _ _ ih ihRest =>
      rcases ih with ⟨-, name, last, failed⟩ | callee
      · cases failed
      · exact ihRest.imp (fun met => ⟨.behind callee met.1, met.2⟩) (.called callee)
  | callFailed _ ih =>
      refine ih.imp (fun met => ⟨.callee met.1, ?_⟩) .callFailed
      obtain ⟨name, last, failed⟩ := met.2
      obtain ⟨isError, rfl⟩ := Prod.mk.inj failed
      obtain rfl := Except.error.inj isError
      exact ⟨name, _, rfl⟩

/-- Where the limit is met, the evaluation fails. -/
theorem Exceeds.outOfRoom (exceeds : plan.Exceeds foreign routine turn)
    (runs : plan.Runs foreign routine HasRoom turn calls deepest outcome) : OutOfRoom outcome := by
  induction exceeds generalizing calls deepest with
  | look _ ih =>
      cases runs with
      | look rest => exact ih rest
  | elapsed read _ ih =>
      cases runs with
      | elapsed read' rest =>
          obtain ⟨isAge, rfl⟩ := Prod.mk.inj (read.symm.trans read')
          obtain rfl := Except.ok.inj isAge
          exact ih rest
  | reported ran _ ih =>
      cases runs with
      | reported ran' rest =>
          obtain ⟨isValue, rfl⟩ := Prod.mk.inj (ran.symm.trans ran')
          obtain rfl := Except.ok.inj isValue
          exact ih rest
      | reportFailed ran' => cases ran.symm.trans ran'
  | here isFull =>
      cases runs with
      | room isRoom _ => exact (isFull isRoom).elim
      | noRoom => exact ⟨_, _, rfl⟩
  | inRoom _ ih =>
      cases runs with
      | room _ rest => exact ih rest
      | noRoom => exact ⟨_, _, rfl⟩
  | callee _ ih =>
      cases runs with
      | called callee _ =>
          obtain ⟨name, last, failed⟩ := ih callee
          cases failed
      | callFailed callee =>
          obtain ⟨name, last, failed⟩ := ih callee
          cases failed
          exact ⟨_, _, rfl⟩
  | behind free _ ih =>
      cases runs with
      | called callee rest =>
          rcases callee.exceeds_or with ⟨-, name, last, failed⟩ | agrees
          · cases failed
          · obtain ⟨-, -, same⟩ := free.unique agrees
            obtain ⟨isValue, rfl⟩ := Prod.mk.inj same
            obtain rfl := Except.ok.inj isValue
            exact ih rest
      | callFailed callee =>
          rcases callee.exceeds_or with ⟨-, name, last, failed⟩ | agrees
          · cases failed
            exact ⟨_, _, rfl⟩
          · cases (free.unique agrees).2.2

/-- The computation is the evaluation of the plan: it ends after finitely many calls, none of them in a
body that is nested deeper than the limit, and only so.  It fails for want of room where evaluation
without a limit would go on to another body, and otherwise comes out as without a limit. -/
structure Bounded (foreign : Foreign) (routine : Routine) (plan : Plan α) (act : Act α) (turn : Turn) :
    Prop where
  ends : ∃ calls deepest, deepest ≤ helperLimit ∧
    plan.Runs foreign routine HasRoom turn calls deepest (act.run.run turn)
  only : ∀ calls deepest outcome, plan.Runs foreign routine HasRoom turn calls deepest outcome →
    deepest ≤ helperLimit ∧ outcome = act.run.run turn
  exceeding : plan.Exceeds foreign routine turn → OutOfRoom (act.run.run turn)
  within : ¬ plan.Exceeds foreign routine turn → ∃ calls deepest, deepest ≤ helperLimit ∧
    plan.Runs foreign routine Anywhere turn calls deepest (act.run.run turn)
  deeper : ∀ calls deepest outcome, plan.Runs foreign routine Anywhere turn calls deepest outcome →
    helperLimit < deepest → plan.Exceeds foreign routine turn

theorem Realizes.bounded (realizes : Realizes foreign routine plan act) (turn : Turn) :
    plan.Bounded foreign routine act turn := by
  obtain ⟨calls, deepest, bound, runs⟩ := realizes turn
  have within (fits : ¬ plan.Exceeds foreign routine turn) :
      plan.Runs foreign routine Anywhere turn calls deepest (act.run.run turn) :=
    runs.exceeds_or.resolve_left fun met => fits met.1
  refine ⟨⟨calls, deepest, bound, runs⟩, fun _ _ _ again => ?_, fun exceeds => exceeds.outOfRoom runs,
    fun fits => ⟨calls, deepest, bound, within fits⟩, fun _ _ _ free deep => ?_⟩
  · obtain ⟨-, rfl, rfl⟩ := runs.unique again
    exact ⟨bound, rfl⟩
  · refine Classical.byContradiction fun fits => ?_
    obtain ⟨-, rfl, -⟩ := (within fits).unique free
    omega

end Plan

/-- The evaluation of an expression ends, whatever helpers the routine is linked against and however they
call each other.  It makes finitely many calls and enters no helper body beyond `helperLimit` open ones;
where it would have to, it fails with an error that says so, and the limit has no other effect. -/
theorem evaluation_ends_within_the_helper_limit (foreign : Foreign) (routine : Routine)
    (params : Table Value) (expr : Expr) (turn : Turn) :
    (Plan.value 0 params expr).Bounded foreign routine (eval foreign routine params expr) turn :=
  (realizes_eval expr).bounded turn

end StepCode
