import StepCode.Proofs.Form.Reduction
import StepCode.Proofs.Script.Tree
import StepCode.Proofs.Sequencing

/-!
# What the parsers accept

Whatever is parsed has operators with as many operands as they take, helpers that are called by
symbols and calls with a signature.  Its numbers are among those of the source.
-/

namespace StepCode

/-! ## Regular step code -/

mutual

/-- The numbers that stand in an expression, in reading order. -/
def Expr.numbers : Expr → List Float
  | .number x => [x]
  | .text _ | .bool _ | .var _ | .param _ => []
  | .helper _ args => exprNumbers args
  | .report _ args => argNumbers args
  | .choose cond yes no => cond.numbers ++ yes.numbers ++ no.numbers
  | .builtin _ args => exprNumbers args

def exprNumbers : List Expr → List Float
  | [] => []
  | expr :: rest => expr.numbers ++ exprNumbers rest

def argNumbers : List (String × Expr) → List Float
  | [] => []
  | (_, value) :: rest => value.numbers ++ argNumbers rest

end

mutual

/-- The numbers that stand in a statement, in reading order. -/
def Stmt.numbers : Stmt → List Float
  | .set _ value => value.numbers
  | .change _ amount => amount.numbers
  | .op _ args => argNumbers args
  | .call _ args => exprNumbers args
  | .yield => []
  | .times count body => count.numbers ++ stmtNumbers body
  | .forever body => stmtNumbers body
  | .whileTrue cond body => cond.numbers ++ stmtNumbers body
  | .untilTrue cond body => cond.numbers ++ stmtNumbers body
  | .ifElse cond yes no => cond.numbers ++ stmtNumbers yes ++ stmtNumbers no
  | .ret none => []
  | .ret (some value) => value.numbers

def stmtNumbers : List Stmt → List Float
  | [] => []
  | stmt :: rest => stmt.numbers ++ stmtNumbers rest

end

def Script.numbers (script : Script) : List Float := stmtNumbers script.body

def Helper.numbers (helper : Helper) : List Float := helper.body.numbers

def Bootstrap.numbers (bootstrap : Bootstrap) : List Float :=
  bootstrap.helpers.flatMap Helper.numbers

mutual

/-- Helpers are called by symbols, and operators have as many operands as they take. -/
def Expr.Regular : Expr → Prop
  | .number _ | .text _ | .bool _ | .var _ | .param _ => True
  | .helper name args => IsSymbol name ∧ ExprsRegular args
  | .report _ args => ArgsRegular args
  | .choose cond yes no => cond.Regular ∧ yes.Regular ∧ no.Regular
  | .builtin op args => op.arity.accepts args.length = true ∧ ExprsRegular args

def ExprsRegular : List Expr → Prop
  | [] => True
  | expr :: rest => expr.Regular ∧ ExprsRegular rest

def ArgsRegular : List (String × Expr) → Prop
  | [] => True
  | (_, value) :: rest => value.Regular ∧ ArgsRegular rest

end

mutual

/-- All expressions are regular, and no call has an empty signature. -/
def Stmt.Regular : Stmt → Prop
  | .set _ value => value.Regular
  | .change _ amount => amount.Regular
  | .op _ args => ArgsRegular args
  | .call signature args => signature ≠ "" ∧ ExprsRegular args
  | .yield => True
  | .times count body => count.Regular ∧ StmtsRegular body
  | .forever body => StmtsRegular body
  | .whileTrue cond body => cond.Regular ∧ StmtsRegular body
  | .untilTrue cond body => cond.Regular ∧ StmtsRegular body
  | .ifElse cond yes no => cond.Regular ∧ StmtsRegular yes ∧ StmtsRegular no
  | .ret none => True
  | .ret (some value) => value.Regular

def StmtsRegular : List Stmt → Prop
  | [] => True
  | stmt :: rest => stmt.Regular ∧ StmtsRegular rest

end

def Script.Regular (script : Script) : Prop := StmtsRegular script.body

/-- The name of a helper is a symbol too. -/
def Helper.Regular (helper : Helper) : Prop := IsSymbol helper.name ∧ helper.body.Regular

def Bootstrap.Regular (bootstrap : Bootstrap) : Prop :=
  ∀ helper ∈ bootstrap.helpers, helper.Regular

/-! ### Regular step code with finite numbers -/

mutual

theorem Expr.wellFormed_of_regular (expr : Expr) (regular : expr.Regular)
    (finite : ∀ x ∈ expr.numbers, x.isFinite = true) : expr.WellFormed := by
  match expr with
  | .number x => exact Number.readsBack_of_isFinite (finite x (by simp [Expr.numbers]))
  | .text _ | .bool _ | .var _ | .param _ => trivial
  | .helper name args =>
      exact ⟨regular.1, exprsWellFormed_of_regular args regular.2 finite⟩
  | .report opcode args => exact argsWellFormed_of_regular args regular finite
  | .choose cond yes no =>
      refine ⟨cond.wellFormed_of_regular regular.1 fun x mem => finite x ?_,
        yes.wellFormed_of_regular regular.2.1 fun x mem => finite x ?_,
        no.wellFormed_of_regular regular.2.2 fun x mem => finite x ?_⟩ <;>
        simp [Expr.numbers, mem]
  | .builtin op args =>
      exact ⟨regular.1, exprsWellFormed_of_regular args regular.2 finite⟩

theorem exprsWellFormed_of_regular (args : List Expr) (regular : ExprsRegular args)
    (finite : ∀ x ∈ exprNumbers args, x.isFinite = true) : ExprsWellFormed args := by
  match args with
  | [] => trivial
  | arg :: args =>
      refine ⟨arg.wellFormed_of_regular regular.1 fun x mem => finite x ?_,
        exprsWellFormed_of_regular args regular.2 fun x mem => finite x ?_⟩ <;>
        simp [exprNumbers, mem]

theorem argsWellFormed_of_regular (args : List (String × Expr)) (regular : ArgsRegular args)
    (finite : ∀ x ∈ argNumbers args, x.isFinite = true) : ArgsWellFormed args := by
  match args with
  | [] => trivial
  | (name, value) :: args =>
      refine ⟨value.wellFormed_of_regular regular.1 fun x mem => finite x ?_,
        argsWellFormed_of_regular args regular.2 fun x mem => finite x ?_⟩ <;>
        simp [argNumbers, mem]

end

mutual

theorem Stmt.wellFormed_of_regular (stmt : Stmt) (regular : stmt.Regular)
    (finite : ∀ x ∈ stmt.numbers, x.isFinite = true) : stmt.WellFormed := by
  match stmt with
  | .set var value => exact value.wellFormed_of_regular regular finite
  | .change var amount => exact amount.wellFormed_of_regular regular finite
  | .op opcode args => exact argsWellFormed_of_regular args regular finite
  | .call signature args =>
      exact ⟨regular.1, exprsWellFormed_of_regular args regular.2 finite⟩
  | .yield => trivial
  | .times first body | .whileTrue first body | .untilTrue first body =>
      refine ⟨first.wellFormed_of_regular regular.1 fun x mem => finite x ?_,
        stmtsWellFormed_of_regular body regular.2 fun x mem => finite x ?_⟩ <;>
        simp [Stmt.numbers, mem]
  | .forever body => exact stmtsWellFormed_of_regular body regular finite
  | .ifElse cond yes no =>
      refine ⟨cond.wellFormed_of_regular regular.1 fun x mem => finite x ?_,
        stmtsWellFormed_of_regular yes regular.2.1 fun x mem => finite x ?_,
        stmtsWellFormed_of_regular no regular.2.2 fun x mem => finite x ?_⟩ <;>
        simp [Stmt.numbers, mem]
  | .ret none => trivial
  | .ret (some value) => exact value.wellFormed_of_regular regular finite

theorem stmtsWellFormed_of_regular (body : List Stmt) (regular : StmtsRegular body)
    (finite : ∀ x ∈ stmtNumbers body, x.isFinite = true) : StmtsWellFormed body := by
  match body with
  | [] => trivial
  | stmt :: body =>
      refine ⟨stmt.wellFormed_of_regular regular.1 fun x mem => finite x ?_,
        stmtsWellFormed_of_regular body regular.2 fun x mem => finite x ?_⟩ <;>
        simp [stmtNumbers, mem]

end

/-! ## Parsed forms -/

/-- Step code that was parsed from some tokens: it is regular, and its numbers are among them. -/
structure From (tokens : List Lexeme) (regular : Prop) (numbers : List Float) : Prop where
  regular : regular
  numbers : ∀ x ∈ numbers, .atom (.number x) ∈ tokens

namespace From

variable {tokens : List Lexeme} {first second : Prop} {numbers others : List Float}

theorem nothing : From tokens True [] := ⟨trivial, by simp⟩

theorem append (left : From tokens first numbers) (right : From tokens second others) :
    From tokens (first ∧ second) (numbers ++ others) := by
  refine ⟨⟨left.regular, right.regular⟩, fun x mem => ?_⟩
  exact (List.mem_append.mp mem).elim (left.numbers x) (right.numbers x)

/-- A further condition that does not concern the numbers. -/
theorem and (holds : first) (right : From tokens second numbers) :
    From tokens (first ∧ second) numbers :=
  ⟨⟨holds, right.regular⟩, right.numbers⟩

end From

/-- All that the computation can succeed with is `good`. -/
def Gives {α : Type} (good : α → Prop) (parsed : Parsed α) : Prop :=
  ∀ value, parsed = .ok value → good value

namespace Gives

variable {α β : Type} {good : α → Prop} {post : β → Prop}

theorem fail (problem : Problem) (span : Span) : Gives good (StepCode.fail problem span) :=
  fun _ isOk => nomatch isOk

theorem ok {value : α} (isGood : good value) : Gives good (.ok value) :=
  fun _ isOk => Except.ok.inj isOk ▸ isGood

theorem pure {value : α} (isGood : good value) : Gives good (Pure.pure value) := ok isGood

theorem bind {parsed : Parsed α} {next : α → Parsed β} (first : Gives good parsed)
    (rest : ∀ value, good value → Gives post (next value)) : Gives post (parsed >>= next) := by
  intro value isOk
  obtain ⟨middle, isMiddle, isValue⟩ := bind_eq_ok.mp isOk
  exact rest middle (first middle isMiddle) value isValue

theorem ite {c : Prop} [Decidable c] {yes no : Parsed α} (whenTrue : Gives good yes)
    (whenFalse : Gives good no) : Gives good (if c then yes else no) := by
  split
  · exact whenTrue
  · exact whenFalse

/-- A part of which nothing is kept that matters here. -/
theorem any {parsed : Parsed α} : Gives (fun _ => True) parsed := fun _ _ => trivial

end Gives

/-! ### Forms -/

namespace Form

/-- What holds of a list whenever it holds of its items holds of every form. -/
theorem induction {motive : Form → Prop} (atom : ∀ value span, motive (.atom value span))
    (list : ∀ items span, (∀ item ∈ items, motive item) → motive (.list items span)) (form : Form) :
    motive form :=
  @Form.rec motive (fun items => ∀ item ∈ items, motive item) atom list (by simp)
    (fun _ _ here later => List.forall_mem_cons.mpr ⟨here, later⟩) form

def items : Form → List Form
  | .list items _ => items
  | .atom _ _ => []

/-- All tokens of the form are among these. -/
def Within (tokens : List Lexeme) (form : Form) : Prop := form.tree.lexemes ⊆ tokens

theorem within_list {tokens : List Lexeme} {items : List Form} {span : Span}
    (within : (Form.list items span).Within tokens) : ∀ item ∈ items, item.Within tokens := by
  intro item mem token isToken
  refine within ?_
  simp only [tree, Tree.lexemes, trees_eq_map, Tree.allLexemes_eq_flatMap, List.mem_cons,
    List.mem_append, List.mem_flatMap, List.mem_map]
  exact .inr (.inl ⟨item.tree, ⟨item, mem, rfl⟩, isToken⟩)

theorem within_atom {tokens : List Lexeme} {value : Atom} {span : Span} :
    (Form.atom value span).Within tokens ↔ .atom value ∈ tokens := by
  simp [Within, tree, Tree.lexemes]

end Form

/-- Every symbol among the tokens is one that is read as such. -/
def KnowsSymbols (tokens : List Lexeme) : Prop :=
  ∀ s, .atom (.symbol s) ∈ tokens → IsSymbol s

/-! ### Expressions -/

/-- Whatever expression is parsed from the form comes from the tokens. -/
def GivesExpr (tokens : List Lexeme) (form : Form) : Prop :=
  Gives (fun expr => From tokens expr.Regular expr.numbers) (Expr.ofForm form)

section

variable {tokens : List Lexeme} {forms : List Form}

theorem exprs_from_ofForms (each : ∀ form ∈ forms, GivesExpr tokens form) :
    Gives (fun exprs => From tokens (ExprsRegular exprs) (exprNumbers exprs) ∧
      exprs.length = forms.length) (exprsOfForms forms) := by
  induction forms with
  | nil => exact .ok ⟨.nothing, rfl⟩
  | cons form rest ih =>
      obtain ⟨here, there⟩ := List.forall_mem_cons.mp each
      rw [exprsOfForms]
      refine .bind here fun expr isExpr => ?_
      refine .bind (ih there) fun exprs areExprs => ?_
      exact .pure ⟨isExpr.append areExprs.1, by simp [areExprs.2]⟩

theorem args_from_ofForms (each : ∀ form ∈ forms, ∀ item ∈ form.items, GivesExpr tokens item) :
    Gives (fun args => From tokens (ArgsRegular args) (argNumbers args)) (argsOfForms forms) := by
  induction forms with
  | nil => exact .ok .nothing
  | cons form rest ih =>
      obtain ⟨here, there⟩ := List.forall_mem_cons.mp each
      unfold argsOfForms
      split
      next => exact .ok .nothing
      next name value span others same =>
        obtain ⟨rfl, rfl⟩ := List.cons.inj same
        split
        · exact .fail _ _
        · refine .bind (here value (by simp [Form.items])) fun expr isExpr => ?_
          refine .bind (ih there) fun args areArgs => ?_
          exact .pure (isExpr.append areArgs)
      next => exact .fail _ _

/-- A list that starts with a keyword, given what its other items and their items are parsed as. -/
theorem Expr.from_keyword {head : String} {headSpan span : Span}
    (symbols : ∀ s at_, .atom (.symbol s) at_ ∈ forms → IsSymbol s)
    (each : ∀ form ∈ forms, GivesExpr tokens form)
    (inner : ∀ form ∈ forms, ∀ item ∈ form.items, GivesExpr tokens item) :
    GivesExpr tokens (.list (.atom (.symbol head) headSpan :: forms) span) := by
  unfold GivesExpr Expr.ofForm
  split_ifs
  · split
    · exact .bind .any fun _ _ => .pure .nothing
    · exact .fail _ _
  · split
    · exact .bind .any fun _ _ => .pure .nothing
    · exact .fail _ _
  · split
    next name at_ args =>
      refine .bind (exprs_from_ofForms (List.forall_mem_cons.mp each).2) fun exprs areExprs => ?_
      exact .pure (.and (symbols name at_ (by simp)) areExprs.1)
    next => exact .fail _ _
  · split
    next => exact .fail _ _
    next first args =>
      refine .bind .any fun opcode _ => ?_
      exact .bind (args_from_ofForms (List.forall_mem_cons.mp inner).2) fun _ named => .pure named
  · split
    next cond yes no =>
      refine .bind (each cond (by simp)) fun condExpr isCond => ?_
      refine .bind (each yes (by simp)) fun yesExpr isYes => ?_
      refine .bind (each no (by simp)) fun noExpr isNo => ?_
      have parts := isCond.append (isYes.append isNo)
      exact .pure ⟨parts.regular, by simpa [Expr.numbers] using parts.numbers⟩
    next => exact .fail _ _
  · split
    next => exact .fail _ _
    next op _ =>
      split_ifs with accepts
      · refine .bind (exprs_from_ofForms each) fun exprs areExprs => ?_
        exact .pure (.and (by rw [areExprs.2]; exact accepts) areExprs.1)
      · exact .fail _ _

/-- The items of a form are considered as well, since the value of a named argument is an item of an
item. -/
theorem Expr.from_ofForm (symbols : KnowsSymbols tokens) (form : Form) :
    form.Within tokens → GivesExpr tokens form ∧ ∀ item ∈ form.items, GivesExpr tokens item := by
  induction form using Form.induction with
  | atom value span =>
      refine fun within => ⟨?_, by simp [Form.items]⟩
      rw [Form.within_atom] at within
      cases value with
      | number x => exact .ok ⟨trivial, by simpa [Expr.numbers] using within⟩
      | text s => exact .ok .nothing
      | symbol s =>
          unfold GivesExpr Expr.ofForm
          split_ifs
          · exact .ok .nothing
          · exact .ok .nothing
          · exact .fail _ _
  | list items span ih =>
      intro within
      have parts := fun item mem => ih item mem (Form.within_list within item mem)
      refine ⟨?_, fun item mem => (parts item mem).1⟩
      match items with
      | [] | .list _ _ :: _ | .atom (.number _) _ :: _ | .atom (.text _) _ :: _ =>
          exact .fail .operatorMissing span
      | .atom (.symbol head) headSpan :: rest =>
          obtain ⟨-, parts⟩ := List.forall_mem_cons.mp parts
          refine Expr.from_keyword (fun s at_ mem => ?_) (fun form mem => (parts form mem).1)
            (fun form mem => (parts form mem).2)
          exact symbols s (Form.within_atom.mp
            (Form.within_list within _ (List.mem_cons_of_mem _ mem)))

end

/-! ### Statements -/

/-- Whatever statement is parsed from the form comes from the tokens. -/
def GivesStmt (tokens : List Lexeme) (form : Form) : Prop :=
  Gives (fun stmt => From tokens stmt.Regular stmt.numbers) (Stmt.ofForm form)

section

variable {tokens : List Lexeme} {forms : List Form}

theorem stmts_from_ofForms (each : ∀ form ∈ forms, GivesStmt tokens form) :
    Gives (fun stmts => From tokens (StmtsRegular stmts) (stmtNumbers stmts))
      (stmtsOfForms forms) := by
  induction forms with
  | nil => exact .ok .nothing
  | cons form rest ih =>
      obtain ⟨here, there⟩ := List.forall_mem_cons.mp each
      rw [stmtsOfForms]
      refine .bind here fun stmt isStmt => ?_
      refine .bind (ih there) fun stmts areStmts => ?_
      exact .pure (isStmt.append areStmts)

/-- Of several clauses of a kind the last counts, so a body may be the one that was read before. -/
theorem clauses_from_ofForms (each : ∀ form ∈ forms, ∀ item ∈ form.items, GivesStmt tokens item)
    {yes no : List Stmt} (yesFrom : From tokens (StmtsRegular yes) (stmtNumbers yes))
    (noFrom : From tokens (StmtsRegular no) (stmtNumbers no)) :
    Gives (fun bodies => From tokens (StmtsRegular bodies.1 ∧ StmtsRegular bodies.2)
      (stmtNumbers bodies.1 ++ stmtNumbers bodies.2)) (clausesOfForms yes no forms) := by
  induction forms generalizing yes no with
  | nil => exact .ok (yesFrom.append noFrom)
  | cons form rest ih =>
      obtain ⟨here, there⟩ := List.forall_mem_cons.mp each
      unfold clausesOfForms
      split
      next => exact .ok (yesFrom.append noFrom)
      next head _ body span others same =>
        obtain ⟨rfl, rfl⟩ := List.cons.inj same
        have isBody := stmts_from_ofForms (List.forall_mem_cons.mp here).2
        split_ifs
        · exact .bind isBody fun stmts areStmts => ih there areStmts noFrom
        · exact .bind isBody fun stmts areStmts => ih there yesFrom areStmts
        · exact .fail _ _
      next => exact .fail _ _

/-- A list that starts with a keyword, given what its other items and their items are parsed as. -/
theorem Stmt.from_keyword {head : String} {headSpan span : Span}
    (values : ∀ form ∈ forms, GivesExpr tokens form)
    (named : ∀ form ∈ forms, ∀ item ∈ form.items, GivesExpr tokens item)
    (each : ∀ form ∈ forms, GivesStmt tokens form)
    (inner : ∀ form ∈ forms, ∀ item ∈ form.items, GivesStmt tokens item) :
    GivesStmt tokens (.list (.atom (.symbol head) headSpan :: forms) span) := by
  unfold GivesStmt Stmt.ofForm
  refine .ite ?write (.ite ?op (.ite ?call (.ite ?yield (.ite ?times (.ite ?forever (.ite ?loop
    (.ite ?branches (.ite ?ret (.fail _ _)))))))))
  case write =>
    match forms with
    | [] => exact .fail _ _
    | _ :: [] | _ :: _ :: _ :: _ => exact .bind .any fun var _ => .fail _ _
    | first :: [value] =>
        refine .bind .any fun var _ => .bind (values value (by simp)) fun expr isExpr => ?_
        split
        · exact .pure isExpr
        · exact .pure isExpr
  case op =>
    match forms with
    | [] => exact .fail _ _
    | first :: args =>
        refine .bind .any fun opcode _ => ?_
        exact .bind (args_from_ofForms (List.forall_mem_cons.mp named).2) fun _ isArgs => .pure isArgs
  case call =>
    match forms with
    | [] => exact .fail _ _
    | first :: args =>
        refine .bind .any fun signature _ => ?_
        split
        next => exact .fail _ _
        next nonempty =>
          refine .bind (exprs_from_ofForms (List.forall_mem_cons.mp values).2) fun exprs areExprs => ?_
          exact .pure (.and (by simpa using nonempty) areExprs.1)
  case yield => exact .ite (.ok .nothing) (.fail _ _)
  case times =>
    match forms with
    | [] => exact .fail _ _
    | count :: body =>
        refine .bind (values count (by simp)) fun expr isExpr => ?_
        refine .bind (stmts_from_ofForms (List.forall_mem_cons.mp each).2) fun stmts areStmts => ?_
        exact .pure (isExpr.append areStmts)
  case forever => exact .bind (stmts_from_ofForms each) fun stmts areStmts => .pure areStmts
  case loop =>
    match forms with
    | [] => exact .fail _ _
    | cond :: body =>
        refine .bind (values cond (by simp)) fun expr isExpr => ?_
        refine .bind (stmts_from_ofForms (List.forall_mem_cons.mp each).2) fun stmts areStmts => ?_
        split
        · exact .pure (isExpr.append areStmts)
        · exact .pure (isExpr.append areStmts)
  case branches =>
    match forms with
    | [] => exact .fail _ _
    | cond :: clauses =>
        refine .bind (values cond (by simp)) fun expr isExpr => ?_
        refine .bind (clauses_from_ofForms (List.forall_mem_cons.mp inner).2 .nothing .nothing) ?_
        intro bodies areBodies
        have parts := isExpr.append areBodies
        exact .pure ⟨parts.regular, by simpa [Stmt.numbers] using parts.numbers⟩
  case ret =>
    match forms with
    | [] => exact .ok .nothing
    | [value] => exact .bind (values value (by simp)) fun expr isExpr => .pure isExpr
    | _ :: _ :: _ => exact .fail _ _

/-- The items of a form are considered as well, since a statement in a clause is an item of an
item. -/
theorem Stmt.from_ofForm (symbols : KnowsSymbols tokens) (form : Form) :
    form.Within tokens → GivesStmt tokens form ∧ ∀ item ∈ form.items, GivesStmt tokens item := by
  induction form using Form.induction with
  | atom value span => exact fun _ => ⟨.fail .expectedStatement span, by simp [Form.items]⟩
  | list items span ih =>
      intro within
      have parts := fun item mem => ih item mem (Form.within_list within item mem)
      have values := fun item mem => Expr.from_ofForm symbols item (Form.within_list within item mem)
      refine ⟨?_, fun item mem => (parts item mem).1⟩
      match items with
      | [] | .list _ _ :: _ | .atom (.number _) _ :: _ | .atom (.text _) _ :: _ =>
          exact .fail .keywordMissing span
      | .atom (.symbol head) headSpan :: rest =>
          obtain ⟨-, parts⟩ := List.forall_mem_cons.mp parts
          obtain ⟨-, values⟩ := List.forall_mem_cons.mp values
          exact Stmt.from_keyword (fun form mem => (values form mem).1)
            (fun form mem => (values form mem).2) (fun form mem => (parts form mem).1)
            (fun form mem => (parts form mem).2)

end

/-! ### Scripts, helpers and bootstraps -/

section

variable {tokens : List Lexeme}

theorem itemsAfter_within (head : String) {form : Form} (within : form.Within tokens) :
    Gives (fun items => ∀ item ∈ items, item.Within tokens) (itemsAfter head form) := by
  unfold itemsAfter
  split
  next first _ rest span =>
    split
    · exact .ok (List.forall_mem_cons.mp (Form.within_list within)).2
    · exact .fail _ _
  next => exact .fail _ _

theorem Script.from_ofForm (symbols : KnowsSymbols tokens) {form : Form}
    (within : form.Within tokens) :
    Gives (fun script => From tokens script.Regular script.numbers) (Script.ofForm form) := by
  refine .bind (itemsAfter_within "script" within) fun items among => ?_
  refine .bind .any fun params _ => ?_
  refine .bind (stmts_from_ofForms fun item mem => ?_) fun body isBody => .pure isBody
  exact (Stmt.from_ofForm symbols item (among item (List.mem_of_mem_drop mem))).1

theorem exists_of_head_symbol {items : List Form} {name : String}
    (isName : items.head?.bind Form.symbol? = some name) :
    ∃ span rest, items = .atom (.symbol name) span :: rest := by
  cases items with
  | nil => cases isName
  | cons first rest =>
      cases first with
      | list items span => cases isName
      | atom atom span =>
          cases atom with
          | symbol s =>
              obtain rfl := Option.some.inj isName
              exact ⟨span, rest, rfl⟩
          | text s => cases isName
          | number x => cases isName

theorem Helper.from_ofForm (symbols : KnowsSymbols tokens) {form : Form}
    (within : form.Within tokens) :
    Gives (fun helper => From tokens helper.Regular helper.numbers) (Helper.ofForm form) := by
  refine .bind (itemsAfter_within "helper" within) fun items among => ?_
  split
  next => exact .fail _ _
  next name isName =>
    have isSymbol : IsSymbol name := by
      obtain ⟨span, rest, rfl⟩ := exists_of_head_symbol isName
      exact symbols name (Form.within_atom.mp (among _ List.mem_cons_self))
    refine .bind .any fun params _ => ?_
    split
    next body isBody =>
      have mem : body ∈ items := List.mem_of_mem_drop (isBody ▸ List.mem_singleton_self body)
      refine .bind (Expr.from_ofForm symbols body (among body mem)).1 fun expr isExpr => ?_
      exact .pure (.and isSymbol isExpr)
    next => exact .fail _ _

theorem helpers_from_ofForms (symbols : KnowsSymbols tokens) {forms : List Form}
    (within : ∀ form ∈ forms, form.Within tokens) :
    Gives (fun helpers => From tokens (∀ helper ∈ helpers, helper.Regular)
      (helpers.flatMap Helper.numbers)) (helpersOfForms forms) := by
  induction forms with
  | nil => exact .ok ⟨by simp, by simp⟩
  | cons form rest ih =>
      obtain ⟨here, there⟩ := List.forall_mem_cons.mp within
      refine .bind (Helper.from_ofForm symbols here) fun helper isHelper => ?_
      refine .bind (ih there) fun helpers areHelpers => ?_
      have both := isHelper.append areHelpers
      exact .pure ⟨List.forall_mem_cons.mpr both.regular, by simpa using both.numbers⟩

theorem Bootstrap.from_ofForm (symbols : KnowsSymbols tokens) {form : Form}
    (within : form.Within tokens) :
    Gives (fun bootstrap => From tokens bootstrap.Regular bootstrap.numbers)
      (Bootstrap.ofForm form) := by
  refine .bind (itemsAfter_within "bootstrap" within) fun items among => ?_
  split
  next => exact .fail _ _
  next version _ =>
    refine .bind (helpers_from_ofForms symbols fun item mem => ?_) fun helpers areHelpers =>
      .pure areHelpers
    exact among item (List.mem_of_mem_drop mem)

end

end StepCode
