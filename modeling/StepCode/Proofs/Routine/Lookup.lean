import StepCode.Proofs.Host.Reachable
import StepCode.Proofs.Operation.Needs
import StepCode.Proofs.Routine.Evaluation
import StepCode.Proofs.Routine.Reachable
import StepCode.Proofs.Routine.Scriptless
import StepCode.Proofs.Script.Printing

/-!
# Helpers are found

A routine carries every helper that its statements and its helpers call.  Evaluation therefore never
misses one, whatever the host and however deep helpers call each other.
-/

namespace StepCode

/-! ## The expressions of a routine -/

/-- The expressions that the statement holds itself. -/
def Instr.exprs : Instr → List Expr
  | .set _ value => [value]
  | .change _ amount => [amount]
  | .op _ args => args.map (·.2)
  | .call _ args => args
  | .times count _ => [count]
  | .whileTrue cond _ | .untilTrue cond _ | .ifElse cond _ _ => [cond]
  | .ret value => value.toList
  | .yield | .forever _ => []

namespace Routine

/-- All expressions of the bodies are `good`. -/
def BodiesHold (good : Expr → Prop) : List (List Instr) → Prop :=
  BodiesAll fun instr => ∀ expr ∈ instr.exprs, good expr

section

variable {good : Expr → Prop}

mutual

/-- Numbering the bodies of statements keeps the expressions that they hold. -/
theorem flatten_hold : (stmts : List Stmt) → (∀ expr ∈ bodyExprs stmts, good expr) →
    ∀ bodies, BodiesHold good bodies →
      (∀ instr ∈ (flatten stmts bodies).1, ∀ expr ∈ instr.exprs, good expr) ∧
        BodiesHold good (flatten stmts bodies).2
  | [], _ => fun bodies held => by
      rw [flatten]
      exact ⟨by simp, held⟩
  | stmt :: rest, all => fun bodies held => by
      rw [bodyExprs, List.forall_mem_append] at all
      obtain ⟨here, bodies'⟩ := flattenStmt_hold stmt all.1 bodies held
      obtain ⟨later, bodies''⟩ := flatten_hold rest all.2 _ bodies'
      rw [flatten]
      exact ⟨List.forall_mem_cons.mpr ⟨here, later⟩, bodies''⟩

theorem flattenStmt_hold : (stmt : Stmt) → (∀ expr ∈ stmt.exprs, good expr) →
    ∀ bodies, BodiesHold good bodies →
      (∀ expr ∈ (flattenStmt stmt bodies).1.exprs, good expr) ∧
        BodiesHold good (flattenStmt stmt bodies).2
  | .set _ _, all => fun _ held => ⟨all, held⟩
  | .change _ _, all => fun _ held => ⟨all, held⟩
  | .op _ _, all => fun _ held => ⟨all, held⟩
  | .call _ _, all => fun _ held => ⟨all, held⟩
  | .yield, all => fun _ held => ⟨all, held⟩
  | .times count body, all => fun _ held => by
      rw [Stmt.exprs, List.forall_mem_cons] at all
      exact ⟨by simpa [flattenStmt, Instr.exprs] using all.1,
        reserve_all (flatten_hold body all.2) held⟩
  | .forever body, all => fun _ held =>
      ⟨by simp [flattenStmt, Instr.exprs], reserve_all (flatten_hold body all) held⟩
  | .whileTrue cond body, all => fun _ held => by
      rw [Stmt.exprs, List.forall_mem_cons] at all
      exact ⟨by simpa [flattenStmt, Instr.exprs] using all.1,
        reserve_all (flatten_hold body all.2) held⟩
  | .untilTrue cond body, all => fun _ held => by
      rw [Stmt.exprs, List.forall_mem_cons] at all
      exact ⟨by simpa [flattenStmt, Instr.exprs] using all.1,
        reserve_all (flatten_hold body all.2) held⟩
  | .ifElse cond yes no, all => fun _ held => by
      rw [Stmt.exprs, List.forall_mem_cons, List.forall_mem_append] at all
      exact ⟨by simpa [flattenStmt, Instr.exprs] using all.1,
        reserve_all (flatten_hold no all.2.2) (reserve_all (flatten_hold yes all.2.1) held)⟩
  | .ret _, all => fun _ held => ⟨all, held⟩

end

/-- The numbered bodies of a script hold its expressions only. -/
theorem numbered_hold {stmts : List Stmt} (all : ∀ expr ∈ bodyExprs stmts, good expr) :
    BodiesHold good (numbered stmts) := by
  have nothing : BodiesHold good [[]] := by simp [BodiesHold, BodiesAll]
  obtain ⟨entry, others⟩ := flatten_hold stmts all _ nothing
  intro body mem
  rcases List.mem_or_eq_of_mem_set mem with before | rfl
  · exact others body before
  · exact entry

end

/-- The expression occurs in a statement of the routine, or in the body of a helper that it
carries. -/
def Evaluates (routine : Routine) (expr : Expr) : Prop :=
  (∃ body ∈ routine.bodies, ∃ instr ∈ body, ∃ whole ∈ instr.exprs, expr.Within whole) ∨
    ∃ name helper, routine.helpers.get? name = some helper ∧ expr.Within helper.body

end Routine

/-! ## Errors of foreign blocks -/

/-- Some block of a foreign extension that compiled code calls ends with this error. -/
def Foreign.Raises (foreign : Foreign) (error : RunError) : Prop :=
  ∃ extension opcode args state turn,
    ((foreign extension opcode args).perform .compiled state turn).1 = .error error

/-- The computation misses no helper, unless a foreign block claims so. -/
def FindsHelpers {α : Type} (foreign : Foreign) (act : Act α) : Prop :=
  ∀ turn name, (act.run.run turn).1 = .error (.unknownHelper name) →
    foreign.Raises (.unknownHelper name)

namespace FindsHelpers

variable {foreign : Foreign} {α β : Type}

theorem pure {value : α} : FindsHelpers foreign (Pure.pure value : Act α) := nofun

theorem get : FindsHelpers foreign (MonadState.get : Act Turn) := nofun

theorem elapsed : FindsHelpers foreign Act.elapsed := nofun

theorem throw {error : RunError} (other : ∀ name, error ≠ .unknownHelper name) :
    FindsHelpers foreign (MonadExcept.throw error : Act α) :=
  fun _ name failed => absurd (Except.error.inj failed) (other name)

theorem bind {act : Act α} {next : α → Act β} (first : FindsHelpers foreign act)
    (rest : ∀ value, FindsHelpers foreign (next value)) : FindsHelpers foreign (act >>= next) := by
  intro turn name failed
  rw [ExceptT.run_bind, StateT.run_bind] at failed
  cases ran : act.run.run turn with
  | mk outcome after =>
      rw [ran] at failed
      cases outcome with
      | error error =>
          obtain rfl : error = .unknownHelper name := Except.error.inj failed
          exact first turn name (by rw [ran])
      | ok value => exact rest value after name failed

end FindsHelpers

section

variable {foreign : Foreign}

/-- A block that compiled code calls does not look for helpers. -/
theorem raises_of_dispatch {opcode name : String} {args : Table Value} {state : BlockState}
    {turn : Turn}
    (failed : ((dispatch foreign opcode args).perform .compiled state turn).1 =
      .error (.unknownHelper name)) :
    foreign.Raises (.unknownHelper name) := by
  cases isStandard : StandardBlock.ofOpcode? opcode with
  | some block =>
      have isBlock : dispatch foreign opcode args = block.run args := by rw [dispatch, isStandard]
      rw [isBlock] at failed
      have answered := (block.answers_compiled args state turn).2
      rw [failed] at answered
      split at answered <;> simp at answered
  | none =>
      cases isSplit : splitOpcode? opcode with
      | none =>
          have nothing : dispatch foreign opcode args = return .empty := by
            rw [dispatch, isStandard]; dsimp only; rw [isSplit]
          rw [nothing] at failed
          cases failed
      | some parts =>
          rw [perform_dispatch_extension isStandard isSplit] at failed
          split at failed
          · cases failed
          · unfold supportCall at failed
            split at failed
            · cases failed
            · cases failed
          · exact ⟨_, _, _, _, _, failed⟩

theorem reportBlock_finds (opcode : String) (args : Table Value) :
    FindsHelpers foreign (reportBlock foreign opcode args) := by
  refine .bind ?_ fun _ => .bind (fun _ _ failed => by cases failed) fun _ => .pure
  intro turn name failed
  change (runBlock foreign opcode args .fresh turn).1 = _ at failed
  unfold runBlock at failed
  split at failed
  next error call ran =>
    obtain rfl : error = .unknownHelper name := Except.error.inj failed
    exact raises_of_dispatch (by rw [ran])
  next => cases failed

end

/-! ## Evaluation -/

/-- Evaluation itself fails for lack of a helper only where it looks one up. -/
theorem evaluative_finds (foreign : Foreign) :
    Evaluative foreign (fun error => ∀ name, error ≠ .unknownHelper name)
      fun _ act => FindsHelpers foreign act where
  pure _ := .pure
  throw := .throw
  get := .get
  elapsed := .elapsed
  bind := .bind
  report := reportBlock_finds

/-! ## Loaded routines -/

namespace Routine

variable {source : String} {table : Table Helper} {script : Script} {routine : Routine} {expr : Expr}
  {name : String}

/-- A loaded routine carries what its expressions call. -/
theorem contains_of_evaluates (isScript : routine.script = script)
    (linking : Linking table script routine.helpers []) (evaluates : routine.Evaluates expr)
    (called : name ∈ expr.helperCalls) : routine.helpers.contains name = true := by
  obtain ⟨args, call⟩ := expr.mem_helperCalls.mp called
  rcases evaluates with ⟨body, inBodies, instr, inBody, whole, mem, within⟩ | ⟨caller, helper, found, within⟩
  · rw [routine.isNumbered, isScript] at inBodies
    have held : whole ∈ bodyExprs script.body :=
      numbered_hold (fun _ mem => mem) body inBodies instr inBody whole mem
    exact linking.contains_of_reaches (.script ⟨whole, held, call.trans within⟩)
  · obtain ⟨inTable, reached⟩ := linking.sound caller helper found
    exact linking.contains_of_reaches (.helper reached inTable (call.trans within))

/-- Whatever is evaluated of a loaded routine, no helper is missing. -/
theorem finds_of_evaluates (isScript : routine.script = script)
    (linking : Linking table script routine.helpers []) (evaluates : routine.Evaluates expr)
    (foreign : Foreign) (room : Nat) (params : Table Value) :
    FindsHelpers foreign (evalWith foreign routine (innerEval foreign routine room) params expr) := by
  have ready : routine.Ready fun error => ∀ name, error ≠ .unknownHelper name :=
    ⟨fun _ _ => nofun, fun caller helper found _ called =>
      .inl (contains_of_evaluates isScript linking (.inr ⟨caller, helper, found, .self⟩) called)⟩
  have closed := evaluative_finds foreign
  exact closed.evalWith ready (closed.innerEval ready room) expr fun _ called =>
    .inl (contains_of_evaluates isScript linking evaluates called)

/-- Loading a text that can be read fails exactly if a helper that it reaches is not in the table, and
names such a helper.  Otherwise the routine carries exactly the helpers that are reached, each as the
table has it; whatever is evaluated of it, at any depth and on any host, no helper is missing. -/
theorem load_links_what_is_reached (parsed : Script.parse source = .ok script) (table : Table Helper)
    (foreign : Foreign) :
    ((∃ error, load source table = .error error) ↔
        ∃ name, script.Reaches table name ∧ table.get? name = none) ∧
      (∀ error, load source table = .error error →
        ∃ name, error = .unknownHelper name ∧ script.Reaches table name ∧ table.get? name = none) ∧
      ∀ routine, load source table = .ok routine →
        routine.helpers.keys.Nodup ∧
          (∀ name, name ∈ routine.helpers.keys ↔ script.Reaches table name) ∧
          (∀ name, script.Reaches table name →
            ∃ helper, table.get? name = some helper ∧ routine.helpers.get? name = some helper) ∧
          ∀ expr, routine.Evaluates expr → ∀ room params turn name,
            ((evalWith foreign routine (innerEval foreign routine room) params expr).run.run turn).1 =
                .error (.unknownHelper name) →
              foreign.Raises (.unknownHelper name) := by
  rcases load_cases parsed with
    ⟨routine, loaded, isScript, linking⟩ | ⟨missing, failed, reached, absent⟩
  · refine ⟨⟨?_, ?_⟩, ?_, ?_⟩
    · rintro ⟨error, failed⟩
      rw [loaded] at failed
      cases failed
    · rintro ⟨name, reached, absent⟩
      obtain ⟨helper, found, -⟩ := linking.exists_helper reached
      rw [absent] at found
      cases found
    · intro error failed
      rw [loaded] at failed
      cases failed
    · intro other isOther
      obtain rfl : routine = other := Except.ok.inj (loaded.symm.trans isOther)
      exact ⟨linking.distinct, fun _ => linking.mem_keys_iff, fun _ => linking.exists_helper,
        fun expr evaluates room params => finds_of_evaluates isScript linking evaluates foreign room params⟩
  · refine ⟨⟨fun _ => ⟨missing, reached, absent⟩, fun _ => ⟨_, failed⟩⟩, ?_, ?_⟩
    · intro error isError
      obtain rfl := Except.error.inj (failed.symm.trans isError)
      exact ⟨missing, rfl, reached, absent⟩
    · intro routine loaded
      rw [failed] at loaded
      cases loaded

/-! ### Helpers that call each other -/

def echoHelpers : Table Helper :=
  ⟨[("ping", ⟨"ping", ["v"], .helper "pong" [.param "v"]⟩),
    ("pong", ⟨"pong", ["v"], .helper "ping" [.param "v"]⟩),
    ("aside", ⟨"aside", [], .text "unused"⟩)]⟩

def echoScript : Script := ⟨[], [.whileTrue (.helper "ping" [.text "x"]) [.yield]]⟩

/-- What is reached by way of another helper is linked, what is not reached is left out, and no depth of
calls misses a helper. -/
theorem echoScript_links : ∃ routine, load echoScript.print echoHelpers = .ok routine ∧
    routine.helpers.keys = ["ping", "pong"] ∧ echoScript.Reaches echoHelpers "pong" ∧
      ∀ room params turn name,
        ((evalWith idleForeign routine (innerEval idleForeign routine room) params
          (.helper "ping" [.text "x"])).run.run turn).1 ≠ .error (.unknownHelper name) := by
  have parsed : Script.parse echoScript.print = .ok echoScript :=
    Script.parse_print ⟨⟨⟨by decide, trivial, trivial⟩, trivial, trivial⟩, trivial⟩
  obtain ⟨-, -, links⟩ := load_links_what_is_reached parsed echoHelpers idleForeign
  have loaded : load echoScript.print echoHelpers =
      .ok ⟨echoScript, numbered echoScript.body, ⟨echoHelpers.entries.take 2⟩, rfl⟩ := by
    have linked : link echoHelpers .empty ["ping"] = .ok ⟨echoHelpers.entries.take 2⟩ := by
      simp [link, echoHelpers, Table.contains, Table.get?, Table.find, Table.insert, Table.store,
        Table.empty, Expr.helperNames, firstOccurrences, Expr.helperCalls, helperCallsList]
    rw [load, parsed]
    change (link echoHelpers .empty ["ping"] >>= _) = _
    rw [linked]
    rfl
  obtain ⟨-, isReached, -, finds⟩ := links _ loaded
  refine ⟨_, loaded, rfl, (isReached "pong").mp (by decide), fun room params turn name failed => ?_⟩
  have evaluates : Evaluates ⟨echoScript, numbered echoScript.body, ⟨echoHelpers.entries.take 2⟩, rfl⟩
      (.helper "ping" [.text "x"]) :=
    .inl ⟨_, List.mem_cons_self, _, List.mem_cons_self, _, List.mem_cons_self, .self⟩
  obtain ⟨_, _, _, _, _, raised⟩ := finds _ evaluates room params turn name failed
  cases raised

end Routine

end StepCode
