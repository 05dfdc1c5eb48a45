import StepCode.Proofs.Sequencing
import StepCode.Routine.Load

/-!
# Numbered bodies

A routine has every statement list of its script under the number that its statements use.
-/

namespace StepCode

namespace Routine

mutual

/-- The instructions are the statements, and `bodies` has under each number the statement list that
it stands for. -/
def Holds (bodies : Nat → List Instr) : List Stmt → List Instr → Prop
  | [], instrs => instrs = []
  | stmt :: rest, instrs =>
      ∃ instr others, instrs = instr :: others ∧ HoldsStmt bodies stmt instr ∧ Holds bodies rest others

def HoldsStmt (bodies : Nat → List Instr) : Stmt → Instr → Prop
  | .set var value, instr => instr = .set var value
  | .change var amount, instr => instr = .change var amount
  | .op opcode args, instr => instr = .op opcode args
  | .call signature args, instr => instr = .call signature args
  | .yield, instr => instr = .yield
  | .times count body, instr => ∃ id, instr = .times count id ∧ Holds bodies body (bodies id)
  | .forever body, instr => ∃ id, instr = .forever id ∧ Holds bodies body (bodies id)
  | .whileTrue cond body, instr => ∃ id, instr = .whileTrue cond id ∧ Holds bodies body (bodies id)
  | .untilTrue cond body, instr => ∃ id, instr = .untilTrue cond id ∧ Holds bodies body (bodies id)
  | .ifElse cond yes no, instr =>
      ∃ id other, instr = .ifElse cond id other ∧ Holds bodies yes (bodies id) ∧
        Holds bodies no (bodies other)
  | .ret value, instr => instr = .ret value

end

/-! ## What bodies are made of -/

/-- All instructions of the bodies are `good`. -/
def BodiesAll (good : Instr → Prop) (bodies : List (List Instr)) : Prop :=
  ∀ body ∈ bodies, ∀ instr ∈ body, good instr

/-- Filling the next free place keeps what is common to all instructions, if the filling does. -/
theorem reserve_all {good : Instr → Prop}
    {fill : List (List Instr) → List Instr × List (List Instr)}
    (filled : ∀ bodies, BodiesAll good bodies →
      (∀ instr ∈ (fill bodies).1, good instr) ∧ BodiesAll good (fill bodies).2)
    {bodies : List (List Instr)} (all : BodiesAll good bodies) :
    BodiesAll good (reserve fill bodies).2 := by
  have grown : BodiesAll good (bodies ++ [[]]) := by
    intro body mem
    rcases List.mem_append.mp mem with before | last
    · exact all body before
    · simp [List.mem_singleton.mp last]
  obtain ⟨here, others⟩ := filled _ grown
  intro body mem
  rcases List.mem_or_eq_of_mem_set mem with before | rfl
  · exact others body before
  · exact here

/-- Bodies that are there stay under their numbers. -/
structure Grows (bodies later : List (List Instr)) : Prop where
  length : bodies.length ≤ later.length
  kept : ∀ id < bodies.length, later[id]? = bodies[id]?

theorem Grows.refl (bodies : List (List Instr)) : Grows bodies bodies := ⟨Nat.le_refl _, fun _ _ => rfl⟩

theorem Grows.trans {bodies later last : List (List Instr)} (first : Grows bodies later)
    (second : Grows later last) : Grows bodies last := by
  refine ⟨Nat.le_trans first.length second.length, fun id inside => ?_⟩
  rw [second.kept id (Nat.lt_of_lt_of_le inside first.length), first.kept id inside]

/-- What was numbered between the two lists is found in `placed`. -/
def Placed (bodies later : List (List Instr)) (placed : Nat → List Instr) : Prop :=
  ∀ id, bodies.length ≤ id → id < later.length → placed id = (later[id]?).getD []

/-- What is numbered first stays where it is put. -/
theorem Placed.earlier {bodies later last : List (List Instr)} {placed : Nat → List Instr}
    (here : Placed bodies last placed) (grows : Grows later last) : Placed bodies later placed := by
  intro id above below
  rw [here id above (Nat.lt_of_lt_of_le below grows.length), grows.kept id below]

theorem Placed.later {bodies later last : List (List Instr)} {placed : Nat → List Instr}
    (here : Placed bodies last placed) (grows : Grows bodies later) : Placed later last placed :=
  fun id above below => here id (Nat.le_trans grows.length above) below

/-- Numbering gives instructions that hold wherever the new bodies are put. -/
structure Numbers (bodies later : List (List Instr)) (held : (Nat → List Instr) → Prop) : Prop where
  grows : Grows bodies later
  held : ∀ placed, Placed bodies later placed → held placed

/-- A body is put under the number that it gets. -/
theorem numbers_reserve {stmts : List Stmt} (bodies : List (List Instr))
    (filled : Numbers (bodies ++ [[]]) (flatten stmts (bodies ++ [[]])).2
      fun placed => Holds placed stmts (flatten stmts (bodies ++ [[]])).1) :
    Numbers bodies (reserve (flatten stmts) bodies).2
      fun placed => Holds placed stmts (placed (reserve (flatten stmts) bodies).1) := by
  have inside : bodies.length < (flatten stmts (bodies ++ [[]])).2.length := by
    have longer := filled.grows.length
    simp only [List.length_append, List.length_singleton] at longer
    omega
  refine ⟨⟨?_, fun id below => ?_⟩, fun placed here => ?_⟩
  · simp only [reserve, List.length_set]
    omega
  · have kept := filled.grows.kept id (by simp; omega)
    rw [reserve, List.getElem?_set_ne (by omega), kept, List.getElem?_append_left below]
  · have isBody : placed bodies.length = (flatten stmts (bodies ++ [[]])).1 := by
      rw [here _ (Nat.le_refl _) (by simpa [reserve] using inside)]
      simp [reserve, inside]
    change Holds placed stmts (placed bodies.length)
    rw [isBody]
    refine filled.held placed fun id above below => ?_
    simp only [List.length_append, List.length_singleton] at above
    rw [here id (by omega) (by simpa [reserve] using below), reserve,
      List.getElem?_set_ne (by omega)]

theorem numbers_here (bodies : List (List Instr)) {held : (Nat → List Instr) → Prop}
    (holds : ∀ placed, held placed) : Numbers bodies bodies held :=
  ⟨.refl bodies, fun placed _ => holds placed⟩

mutual

theorem numbers_flatten (stmts : List Stmt) (bodies : List (List Instr)) :
    Numbers bodies (flatten stmts bodies).2
      fun placed => Holds placed stmts (flatten stmts bodies).1 := by
  match stmts with
  | [] => exact numbers_here bodies fun placed => by rw [Holds, flatten]
  | stmt :: rest =>
      have first := numbers_flattenStmt stmt bodies
      have second := numbers_flatten rest (flattenStmt stmt bodies).2
      refine ⟨first.grows.trans second.grows, fun placed here => ?_⟩
      rw [flatten, Holds]
      exact ⟨_, _, rfl, first.held placed (here.earlier second.grows),
        second.held placed (here.later first.grows)⟩

theorem numbers_flattenStmt (stmt : Stmt) (bodies : List (List Instr)) :
    Numbers bodies (flattenStmt stmt bodies).2
      fun placed => HoldsStmt placed stmt (flattenStmt stmt bodies).1 := by
  match stmt with
  | .set var value => exact numbers_here bodies fun placed => by rw [HoldsStmt, flattenStmt]
  | .change var amount => exact numbers_here bodies fun placed => by rw [HoldsStmt, flattenStmt]
  | .op opcode args => exact numbers_here bodies fun placed => by rw [HoldsStmt, flattenStmt]
  | .call signature args => exact numbers_here bodies fun placed => by rw [HoldsStmt, flattenStmt]
  | .yield => exact numbers_here bodies fun placed => by rw [HoldsStmt, flattenStmt]
  | .ret value => exact numbers_here bodies fun placed => by rw [HoldsStmt, flattenStmt]
  | .times count body =>
      have numbers := numbers_reserve bodies (numbers_flatten body (bodies ++ [[]]))
      refine ⟨numbers.grows, fun placed here => ?_⟩
      rw [HoldsStmt, flattenStmt]
      exact ⟨_, rfl, numbers.held placed here⟩
  | .forever body =>
      have numbers := numbers_reserve bodies (numbers_flatten body (bodies ++ [[]]))
      refine ⟨numbers.grows, fun placed here => ?_⟩
      rw [HoldsStmt, flattenStmt]
      exact ⟨_, rfl, numbers.held placed here⟩
  | .whileTrue cond body =>
      have numbers := numbers_reserve bodies (numbers_flatten body (bodies ++ [[]]))
      refine ⟨numbers.grows, fun placed here => ?_⟩
      rw [HoldsStmt, flattenStmt]
      exact ⟨_, rfl, numbers.held placed here⟩
  | .untilTrue cond body =>
      have numbers := numbers_reserve bodies (numbers_flatten body (bodies ++ [[]]))
      refine ⟨numbers.grows, fun placed here => ?_⟩
      rw [HoldsStmt, flattenStmt]
      exact ⟨_, rfl, numbers.held placed here⟩
  | .ifElse cond yes no =>
      have first := numbers_reserve bodies (numbers_flatten yes (bodies ++ [[]]))
      have second := numbers_reserve (reserve (flatten yes) bodies).2 (numbers_flatten no _)
      refine ⟨first.grows.trans second.grows, fun placed here => ?_⟩
      rw [HoldsStmt, flattenStmt]
      exact ⟨_, _, rfl, first.held placed (here.earlier second.grows),
        second.held placed (here.later first.grows)⟩

end

/-- A routine holds the statements of its script. -/
theorem holds (routine : Routine) :
    Holds routine.body routine.script.body (routine.body entry) := by
  have numbers := numbers_flatten routine.script.body [[]]
  have inside : 0 < (flatten routine.script.body [[]]).2.length := numbers.grows.length
  have isBodies : routine.bodies = (flatten routine.script.body [[]]).2.set entry
      (flatten routine.script.body [[]]).1 := routine.isNumbered
  have isEntry : routine.body entry = (flatten routine.script.body [[]]).1 := by
    simp [body, isBodies, entry, inside]
  rw [isEntry]
  refine numbers.held _ fun id above below => ?_
  simp only [List.length_singleton] at above
  rw [body, isBodies, List.getElem?_set_ne (by simp only [entry]; omega)]

/-! ## Loaded routines -/

section

variable {source : String} {table : Table Helper} {script : Script} {routine : Routine}

/-- A text that can be read is loaded by linking the helpers that its script calls. -/
theorem load_of_parse (parsed : Script.parse source = .ok script) (table : Table Helper) :
    load source table = (do
      let helpers ← link table .empty script.helperNames.reverse
      return ⟨script, numbered script.body, helpers, rfl⟩) := by
  rw [load, parsed]
  rfl

theorem load_eq_ok (parsed : Script.parse source = .ok script) :
    load source table = .ok routine ↔ ∃ helpers,
      link table .empty script.helperNames.reverse = .ok helpers ∧
        routine = ⟨script, numbered script.body, helpers, rfl⟩ := by
  rw [load_of_parse parsed, bind_eq_ok]
  constructor
  · rintro ⟨helpers, linked, isRoutine⟩
    exact ⟨helpers, linked, (Except.ok.inj isRoutine).symm⟩
  · rintro ⟨helpers, linked, rfl⟩
    exact ⟨helpers, linked, rfl⟩

/-- A routine is loaded from the text of its script. -/
theorem script_of_load (parsed : Script.parse source = .ok script)
    (loaded : load source table = .ok routine) : routine.script = script := by
  obtain ⟨helpers, -, rfl⟩ := (load_eq_ok parsed).mp loaded
  rfl

end

end Routine

end StepCode
