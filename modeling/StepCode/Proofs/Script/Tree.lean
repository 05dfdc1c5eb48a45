import StepCode.Proofs.Form.Writing
import StepCode.Script.Parser
import StepCode.Script.Printer

/-!
# Scripts as forms

Every script has a form, and whatever source has this form is parsed as the script.
-/

namespace StepCode

def Tree.symbol (s : String) : Tree := .atom (.symbol s)

def Tree.text (s : String) : Tree := .atom (.text s)

mutual

def Expr.tree : Expr → Tree
  | .number x => .atom (.number x)
  | .text s => .text s
  | .bool b => .symbol (if b then "true" else "false")
  | .var name => .list [.symbol "get", .text name]
  | .param name => .list [.symbol "param", .text name]
  | .helper name args => .list (.symbol "helper" :: .symbol name :: exprTrees args)
  | .report opcode args => .list (.symbol "report" :: .text opcode :: argTrees args)
  | .choose cond yes no => .list [.symbol "?", cond.tree, yes.tree, no.tree]
  | .builtin op args => .list (.symbol op.symbol :: exprTrees args)

def exprTrees : List Expr → List Tree
  | [] => []
  | expr :: rest => expr.tree :: exprTrees rest

def argTrees : List (String × Expr) → List Tree
  | [] => []
  | (name, value) :: rest => .list [.text name, value.tree] :: argTrees rest

end

mutual

def Stmt.tree : Stmt → Tree
  | .set var value => .list [.symbol "set", .text var, value.tree]
  | .change var amount => .list [.symbol "change", .text var, amount.tree]
  | .op opcode args => .list (.symbol "op" :: .text opcode :: argTrees args)
  | .call signature args => .list (.symbol "call" :: .text signature :: exprTrees args)
  | .yield => .list [.symbol "yield"]
  | .times count body => .list (.symbol "repeat" :: count.tree :: stmtTrees body)
  | .forever body => .list (.symbol "forever" :: stmtTrees body)
  | .whileTrue cond body => .list (.symbol "while" :: cond.tree :: stmtTrees body)
  | .untilTrue cond body => .list (.symbol "until" :: cond.tree :: stmtTrees body)
  | .ifElse cond yes [] =>
      .list [.symbol "if", cond.tree, .list (.symbol "then" :: stmtTrees yes)]
  | .ifElse cond yes (first :: rest) =>
      .list [.symbol "if", cond.tree, .list (.symbol "then" :: stmtTrees yes),
        .list (.symbol "else" :: first.tree :: stmtTrees rest)]
  | .ret none => .list [.symbol "return"]
  | .ret (some value) => .list [.symbol "return", value.tree]

def stmtTrees : List Stmt → List Tree
  | [] => []
  | stmt :: rest => stmt.tree :: stmtTrees rest

end

def Script.tree (script : Script) : Tree :=
  .list (.symbol "script" :: .list (script.params.map .text) :: stmtTrees script.body)

/-! ## Scripts that can be written -/

mutual

/-- Numbers read back from their text, operators have as many operands as they take and helper names
are symbols. -/
def Expr.WellFormed : Expr → Prop
  | .number x => Number.ReadsBack x
  | .text _ => True
  | .bool _ => True
  | .var _ => True
  | .param _ => True
  | .helper name args => IsSymbol name ∧ ExprsWellFormed args
  | .report _ args => ArgsWellFormed args
  | .choose cond yes no => cond.WellFormed ∧ yes.WellFormed ∧ no.WellFormed
  | .builtin op args => op.arity.accepts args.length = true ∧ ExprsWellFormed args

def ExprsWellFormed : List Expr → Prop
  | [] => True
  | expr :: rest => expr.WellFormed ∧ ExprsWellFormed rest

def ArgsWellFormed : List (String × Expr) → Prop
  | [] => True
  | (_, value) :: rest => value.WellFormed ∧ ArgsWellFormed rest

end

mutual

/-- All expressions are well formed and no call has an empty signature. -/
def Stmt.WellFormed : Stmt → Prop
  | .set _ value => value.WellFormed
  | .change _ amount => amount.WellFormed
  | .op _ args => ArgsWellFormed args
  | .call signature args => signature ≠ "" ∧ ExprsWellFormed args
  | .yield => True
  | .times count body => count.WellFormed ∧ StmtsWellFormed body
  | .forever body => StmtsWellFormed body
  | .whileTrue cond body => cond.WellFormed ∧ StmtsWellFormed body
  | .untilTrue cond body => cond.WellFormed ∧ StmtsWellFormed body
  | .ifElse cond yes no => cond.WellFormed ∧ StmtsWellFormed yes ∧ StmtsWellFormed no
  | .ret none => True
  | .ret (some value) => value.WellFormed

def StmtsWellFormed : List Stmt → Prop
  | [] => True
  | stmt :: rest => stmt.WellFormed ∧ StmtsWellFormed rest

end

/-! ## Parsing the form of a script -/

namespace Form

theorem eq_atom_of_tree {form : Form} {value : Atom} (h : form.tree = .atom value) :
    ∃ span, form = .atom value span := by
  cases form with
  | atom found span => exact ⟨span, by simp_all [tree]⟩
  | list items span => simp [tree] at h

theorem eq_list_of_tree {form : Form} {items : List Tree} (h : form.tree = .list items) :
    ∃ forms span, form = .list forms span ∧ trees forms = items := by
  cases form with
  | atom found span => simp [tree] at h
  | list forms span => exact ⟨forms, span, rfl, by simpa [tree] using h⟩

theorem eq_nil_of_trees {forms : List Form} (h : trees forms = []) : forms = [] := by
  cases forms with
  | nil => rfl
  | cons form rest => simp [trees] at h

theorem eq_cons_of_trees {forms : List Form} {first : Tree} {others : List Tree}
    (h : trees forms = first :: others) :
    ∃ form rest, forms = form :: rest ∧ form.tree = first ∧ trees rest = others := by
  cases forms with
  | nil => simp [trees] at h
  | cons form rest => exact ⟨form, rest, rfl, by simpa [trees] using h⟩

/-- A list that starts with a symbol. -/
theorem eq_list_of_tree_cons {form : Form} {head : String} {others : List Tree}
    (h : form.tree = .list (.symbol head :: others)) :
    ∃ headSpan rest span, form = .list (.atom (.symbol head) headSpan :: rest) span ∧
      trees rest = others := by
  obtain ⟨forms, span, rfl, areTrees⟩ := eq_list_of_tree h
  obtain ⟨first, rest, rfl, isHead, isRest⟩ := eq_cons_of_trees areTrees
  obtain ⟨headSpan, rfl⟩ := eq_atom_of_tree isHead
  exact ⟨headSpan, rest, span, rfl, isRest⟩

/-- A list that starts with a symbol and a text. -/
theorem eq_list_of_tree_text {form : Form} {head s : String} {others : List Tree}
    (h : form.tree = .list (.symbol head :: .text s :: others)) :
    ∃ headSpan textSpan rest span,
      form = .list (.atom (.symbol head) headSpan :: .atom (.text s) textSpan :: rest) span ∧
      trees rest = others := by
  obtain ⟨headSpan, forms, span, rfl, behindHead⟩ := eq_list_of_tree_cons h
  obtain ⟨first, rest, rfl, isText, behindText⟩ := eq_cons_of_trees behindHead
  obtain ⟨textSpan, rfl⟩ := eq_atom_of_tree isText
  exact ⟨headSpan, textSpan, rest, span, rfl, behindText⟩

theorem eq_singleton_of_trees {forms : List Form} {tree : Tree} (h : trees forms = [tree]) :
    ∃ form, forms = [form] ∧ form.tree = tree := by
  obtain ⟨form, rest, rfl, isTree, nothing⟩ := eq_cons_of_trees h
  obtain rfl := eq_nil_of_trees nothing
  exact ⟨form, rfl, isTree⟩

end Form

open Form

attribute [local simp] Form.asText Form.text? bind Except.bind pure Except.pure

theorem length_exprTrees {args : List Expr} {forms : List Form} (h : Form.trees forms = exprTrees args) :
    forms.length = args.length := by
  induction args generalizing forms with
  | nil =>
      obtain rfl := eq_nil_of_trees h
      rfl
  | cons arg args ih =>
      obtain ⟨form, rest, rfl, -, others⟩ := eq_cons_of_trees h
      simp [ih others]

/-- No operator is written like a keyword of expressions. -/
theorem Builtin.symbol_ne_keyword (op : Builtin) :
    op.symbol ≠ "get" ∧ op.symbol ≠ "param" ∧ op.symbol ≠ "helper" ∧ op.symbol ≠ "report" ∧
      op.symbol ≠ "?" := by
  cases op <;> decide

mutual

theorem Expr.ofForm_of_tree (expr : Expr) (wellFormed : expr.WellFormed) {form : Form}
    (h : form.tree = expr.tree) : Expr.ofForm form = .ok expr := by
  match expr with
  | .number x =>
      obtain ⟨span, rfl⟩ := eq_atom_of_tree h
      simp [Expr.ofForm]
  | .text s =>
      obtain ⟨span, rfl⟩ := eq_atom_of_tree h
      simp [Expr.ofForm]
  | .bool b =>
      obtain ⟨span, rfl⟩ := eq_atom_of_tree h
      cases b <;> simp [Expr.ofForm]
  | .var name =>
      obtain ⟨headSpan, textSpan, rest, span, rfl, nothing⟩ := eq_list_of_tree_text h
      obtain rfl := eq_nil_of_trees nothing
      simp [Expr.ofForm]
  | .param name =>
      obtain ⟨headSpan, textSpan, rest, span, rfl, nothing⟩ := eq_list_of_tree_text h
      obtain rfl := eq_nil_of_trees nothing
      simp [Expr.ofForm]
  | .helper name args =>
      obtain ⟨headSpan, rest, span, rfl, others⟩ := eq_list_of_tree_cons h
      obtain ⟨first, rest, rfl, isName, later⟩ := eq_cons_of_trees others
      obtain ⟨nameSpan, rfl⟩ := eq_atom_of_tree isName
      unfold Expr.ofForm
      simp [exprsOfForms_of_trees args wellFormed.2 later]
  | .report opcode args =>
      obtain ⟨headSpan, textSpan, rest, span, rfl, later⟩ := eq_list_of_tree_text h
      unfold Expr.ofForm
      simp [argsOfForms_of_trees args wellFormed later]
  | .choose cond yes no =>
      obtain ⟨headSpan, rest, span, rfl, others⟩ := eq_list_of_tree_cons h
      obtain ⟨condForm, rest, rfl, isCond, others⟩ := eq_cons_of_trees others
      obtain ⟨yesForm, rest, rfl, isYes, others⟩ := eq_cons_of_trees others
      obtain ⟨noForm, rfl, isNo⟩ := eq_singleton_of_trees others
      simp [Expr.ofForm, Expr.ofForm_of_tree cond wellFormed.1 isCond,
        Expr.ofForm_of_tree yes wellFormed.2.1 isYes, Expr.ofForm_of_tree no wellFormed.2.2 isNo]
  | .builtin op args =>
      obtain ⟨headSpan, rest, span, rfl, others⟩ := eq_list_of_tree_cons h
      obtain ⟨notGet, notParam, notHelper, notReport, notChoose⟩ := op.symbol_ne_keyword
      have accepts : op.arity.accepts rest.length = true := by
        rw [length_exprTrees others]
        exact wellFormed.1
      unfold Expr.ofForm
      simp [notGet, notParam, notHelper, notReport, notChoose,
        Builtin.ofSymbol?_symbol, accepts, exprsOfForms_of_trees args wellFormed.2 others]

theorem exprsOfForms_of_trees (args : List Expr) (wellFormed : ExprsWellFormed args)
    {forms : List Form} (h : Form.trees forms = exprTrees args) : exprsOfForms forms = .ok args := by
  match args with
  | [] =>
      obtain rfl := eq_nil_of_trees h
      rfl
  | arg :: args =>
      obtain ⟨form, rest, rfl, isArg, others⟩ := eq_cons_of_trees h
      simp [exprsOfForms, Expr.ofForm_of_tree arg wellFormed.1 isArg,
        exprsOfForms_of_trees args wellFormed.2 others]

theorem argsOfForms_of_trees (args : List (String × Expr)) (wellFormed : ArgsWellFormed args)
    {forms : List Form} (h : Form.trees forms = argTrees args) : argsOfForms forms = .ok args := by
  match args with
  | [] =>
      obtain rfl := eq_nil_of_trees h
      rfl
  | (name, value) :: args =>
      obtain ⟨form, rest, rfl, isArg, others⟩ := eq_cons_of_trees h
      obtain ⟨items, span, rfl, pair⟩ := eq_list_of_tree isArg
      obtain ⟨nameForm, items, rfl, isName, pair⟩ := eq_cons_of_trees pair
      obtain ⟨valueForm, rfl, isValue⟩ := eq_singleton_of_trees pair
      obtain ⟨nameSpan, rfl⟩ := eq_atom_of_tree isName
      simp [argsOfForms, Expr.ofForm_of_tree value wellFormed.1 isValue,
        argsOfForms_of_trees args wellFormed.2 others]

end

/-! ### Statements -/

namespace Stmt

variable {form : Form} {first : Expr} {body yes no : List Stmt}

attribute [local simp] Stmt.ofForm

/-- Forms with the trees of a body are read as the body. -/
def ReadsBody (body : List Stmt) : Prop :=
  ∀ {forms : List Form}, Form.trees forms = stmtTrees body → stmtsOfForms forms = .ok body

/-- Both ways to write to a variable are read alike. -/
theorem ofForm_write {head var : String} (isWrite : head = "set" ∨ head = "change")
    (wellFormed : first.WellFormed)
    (h : form.tree = .list [.symbol head, .text var, first.tree]) :
    Stmt.ofForm form = .ok (if head = "set" then .set var first else .change var first) := by
  obtain ⟨headSpan, textSpan, rest, span, rfl, others⟩ := eq_list_of_tree_text h
  obtain ⟨valueForm, rfl, isValue⟩ := eq_singleton_of_trees others
  simp [isWrite, Expr.ofForm_of_tree first wellFormed isValue]

theorem ofForm_op {opcode : String} {args : List (String × Expr)} (wellFormed : ArgsWellFormed args)
    (h : form.tree = (Stmt.op opcode args).tree) : Stmt.ofForm form = .ok (.op opcode args) := by
  obtain ⟨headSpan, textSpan, rest, span, rfl, others⟩ := eq_list_of_tree_text h
  simp [argsOfForms_of_trees args wellFormed others]

theorem ofForm_call {signature : String} {args : List Expr} (named : signature ≠ "")
    (wellFormed : ExprsWellFormed args) (h : form.tree = (Stmt.call signature args).tree) :
    Stmt.ofForm form = .ok (.call signature args) := by
  obtain ⟨headSpan, textSpan, rest, span, rfl, others⟩ := eq_list_of_tree_text h
  simp [named, exprsOfForms_of_trees args wellFormed others]

theorem ofForm_yield (h : form.tree = Stmt.yield.tree) : Stmt.ofForm form = .ok .yield := by
  obtain ⟨headSpan, rest, span, rfl, nothing⟩ := eq_list_of_tree_cons h
  obtain rfl := eq_nil_of_trees nothing
  simp

theorem ofForm_times (wellFormed : first.WellFormed) (reads : ReadsBody body)
    (h : form.tree = (Stmt.times first body).tree) : Stmt.ofForm form = .ok (.times first body) := by
  obtain ⟨headSpan, rest, span, rfl, others⟩ := eq_list_of_tree_cons h
  obtain ⟨countForm, rest, rfl, isCount, isBody⟩ := eq_cons_of_trees others
  simp [Expr.ofForm_of_tree first wellFormed isCount, reads isBody]

theorem ofForm_forever (reads : ReadsBody body) (h : form.tree = (Stmt.forever body).tree) :
    Stmt.ofForm form = .ok (.forever body) := by
  obtain ⟨headSpan, rest, span, rfl, isBody⟩ := eq_list_of_tree_cons h
  simp [reads isBody]

/-- Both kinds of loops with a condition are read alike. -/
theorem ofForm_loop {head : String} (isLoop : head = "while" ∨ head = "until")
    (wellFormed : first.WellFormed) (reads : ReadsBody body)
    (h : form.tree = .list (.symbol head :: first.tree :: stmtTrees body)) :
    Stmt.ofForm form = .ok (if head = "while" then .whileTrue first body else .untilTrue first body) := by
  obtain ⟨headSpan, rest, span, rfl, others⟩ := eq_list_of_tree_cons h
  obtain ⟨condForm, rest, rfl, isCond, isBody⟩ := eq_cons_of_trees others
  rcases isLoop with rfl | rfl <;> simp [Expr.ofForm_of_tree first wellFormed isCond, reads isBody]

/-- A branch without statements has no clause. -/
theorem ofForm_ifElse (wellFormed : first.WellFormed) (readsYes : ReadsBody yes)
    (readsNo : ReadsBody no) (h : form.tree = (Stmt.ifElse first yes no).tree) :
    Stmt.ofForm form = .ok (.ifElse first yes no) := by
  cases no with
  | nil =>
      obtain ⟨headSpan, rest, span, rfl, others⟩ := eq_list_of_tree_cons h
      obtain ⟨condForm, rest, rfl, isCond, clauses⟩ := eq_cons_of_trees others
      obtain ⟨clause, rfl, isThen⟩ := eq_singleton_of_trees clauses
      obtain ⟨thenSpan, yesForms, yesSpan, rfl, isYes⟩ := eq_list_of_tree_cons isThen
      simp [Expr.ofForm_of_tree first wellFormed isCond, clausesOfForms, readsYes isYes]
  | cons stmt no =>
      obtain ⟨headSpan, rest, span, rfl, others⟩ := eq_list_of_tree_cons h
      obtain ⟨condForm, rest, rfl, isCond, clauses⟩ := eq_cons_of_trees others
      obtain ⟨clause, rest, rfl, isThen, others⟩ := eq_cons_of_trees clauses
      obtain ⟨otherClause, rfl, isElse⟩ := eq_singleton_of_trees others
      obtain ⟨thenSpan, yesForms, yesSpan, rfl, isYes⟩ := eq_list_of_tree_cons isThen
      obtain ⟨elseSpan, noForms, noSpan, rfl, isNo⟩ := eq_list_of_tree_cons isElse
      simp [Expr.ofForm_of_tree first wellFormed isCond, clausesOfForms, readsYes isYes, readsNo isNo]

theorem ofForm_ret_none (h : form.tree = (Stmt.ret none).tree) :
    Stmt.ofForm form = .ok (.ret none) := by
  obtain ⟨headSpan, rest, span, rfl, nothing⟩ := eq_list_of_tree_cons h
  obtain rfl := eq_nil_of_trees nothing
  simp

theorem ofForm_ret_some (wellFormed : first.WellFormed)
    (h : form.tree = (Stmt.ret (some first)).tree) : Stmt.ofForm form = .ok (.ret (some first)) := by
  obtain ⟨headSpan, rest, span, rfl, others⟩ := eq_list_of_tree_cons h
  obtain ⟨valueForm, rfl, isValue⟩ := eq_singleton_of_trees others
  simp [Expr.ofForm_of_tree first wellFormed isValue]

end Stmt

mutual

theorem Stmt.ofForm_of_tree (stmt : Stmt) (wellFormed : stmt.WellFormed) {form : Form}
    (h : form.tree = stmt.tree) : Stmt.ofForm form = .ok stmt := by
  match stmt with
  | .set var value => exact Stmt.ofForm_write (.inl rfl) wellFormed h
  | .change var amount => exact Stmt.ofForm_write (.inr rfl) wellFormed h
  | .op opcode args => exact Stmt.ofForm_op wellFormed h
  | .call signature args => exact Stmt.ofForm_call wellFormed.1 wellFormed.2 h
  | .yield => exact Stmt.ofForm_yield h
  | .times count body =>
      exact Stmt.ofForm_times wellFormed.1 (stmtsOfForms_of_trees body wellFormed.2) h
  | .forever body => exact Stmt.ofForm_forever (stmtsOfForms_of_trees body wellFormed) h
  | .whileTrue cond body =>
      exact Stmt.ofForm_loop (.inl rfl) wellFormed.1 (stmtsOfForms_of_trees body wellFormed.2) h
  | .untilTrue cond body =>
      exact Stmt.ofForm_loop (.inr rfl) wellFormed.1 (stmtsOfForms_of_trees body wellFormed.2) h
  | .ifElse cond yes no =>
      exact Stmt.ofForm_ifElse wellFormed.1 (stmtsOfForms_of_trees yes wellFormed.2.1)
        (stmtsOfForms_of_trees no wellFormed.2.2) h
  | .ret none => exact Stmt.ofForm_ret_none h
  | .ret (some value) => exact Stmt.ofForm_ret_some wellFormed h

theorem stmtsOfForms_of_trees (body : List Stmt) (wellFormed : StmtsWellFormed body)
    {forms : List Form} (h : Form.trees forms = stmtTrees body) : stmtsOfForms forms = .ok body := by
  match body with
  | [] =>
      obtain rfl := eq_nil_of_trees h
      rfl
  | stmt :: body =>
      obtain ⟨form, rest, rfl, isStmt, others⟩ := eq_cons_of_trees h
      simp [stmtsOfForms, Stmt.ofForm_of_tree stmt wellFormed.1 isStmt,
        stmtsOfForms_of_trees body wellFormed.2 others]

end

theorem namesOfForms_of_trees {names : List String} {forms : List Form}
    (h : Form.trees forms = names.map .text) : namesOfForms forms = .ok names := by
  induction names generalizing forms with
  | nil =>
      obtain rfl := eq_nil_of_trees h
      rfl
  | cons name names ih =>
      obtain ⟨form, rest, rfl, isText, others⟩ := eq_cons_of_trees h
      obtain ⟨span, rfl⟩ := eq_atom_of_tree isText
      simp [namesOfForms, ih others]

theorem Script.ofForm_of_tree {script : Script} (wellFormed : StmtsWellFormed script.body)
    {form : Form} (h : form.tree = script.tree) : Script.ofForm form = .ok script := by
  obtain ⟨headSpan, rest, span, rfl, others⟩ := eq_list_of_tree_cons h
  obtain ⟨params, rest, rfl, isParams, isBody⟩ := eq_cons_of_trees others
  obtain ⟨names, paramsSpan, rfl, areNames⟩ := eq_list_of_tree isParams
  simp [Script.ofForm, itemsAfter, paramsOfForm, namesOfForms_of_trees areNames,
    stmtsOfForms_of_trees script.body wellFormed isBody]

/-- The tokens of one form are read as that form. -/
theorem Form.readSingle_of_lexemes? {source : String} {tree : Tree}
    (spelt : Phase.gap.lexemes? source.toList = some tree.lexemes) :
    ∃ form, Form.readSingle source = .ok form ∧ form.tree = tree := by
  have single : Tree.allLexemes [tree] = tree.lexemes := by simp [Tree.allLexemes]
  obtain ⟨forms, read, areTrees⟩ := Form.readAll_of_lexemes? (single ▸ spelt)
  obtain ⟨form, rfl, isTree⟩ := eq_singleton_of_trees areTrees
  exact ⟨form, by simp [Form.readSingle, read], isTree⟩

/-- A text that spells the form of a script is parsed as the script. -/
theorem Script.parse_of_spells {script : Script} (wellFormed : StmtsWellFormed script.body)
    {bare : Bool} {source : String} (spells : Spells bare source.toList script.tree.lexemes) :
    Script.parse source = .ok script := by
  obtain ⟨form, read, isScript⟩ := Form.readSingle_of_lexemes? spells.lexemes?
  simp [Script.parse, read, Script.ofForm_of_tree wellFormed isScript]

/-! ### Helpers and bootstraps -/

def Helper.tree (helper : Helper) : Tree :=
  .list [.symbol "helper", .symbol helper.name, .list (helper.params.map .text), helper.body.tree]

def Bootstrap.tree (bootstrap : Bootstrap) : Tree :=
  .list (.symbol "bootstrap" :: .text bootstrap.version :: bootstrap.helpers.map Helper.tree)

theorem Helper.ofForm_of_tree {helper : Helper} (wellFormed : helper.body.WellFormed) {form : Form}
    (h : form.tree = helper.tree) : Helper.ofForm form = .ok helper := by
  obtain ⟨headSpan, rest, span, rfl, others⟩ := eq_list_of_tree_cons h
  obtain ⟨first, rest, rfl, isName, behindName⟩ := eq_cons_of_trees others
  obtain ⟨nameSpan, rfl⟩ := eq_atom_of_tree isName
  obtain ⟨params, rest, rfl, isParams, behindParams⟩ := eq_cons_of_trees behindName
  obtain ⟨names, paramsSpan, rfl, areNames⟩ := eq_list_of_tree isParams
  obtain ⟨body, rfl, isBody⟩ := eq_singleton_of_trees behindParams
  simp [Helper.ofForm, itemsAfter, paramsOfForm, Form.symbol?, namesOfForms_of_trees areNames,
    Expr.ofForm_of_tree helper.body wellFormed isBody]

theorem helpersOfForms_of_trees {helpers : List Helper}
    (wellFormed : ∀ helper ∈ helpers, helper.body.WellFormed) {forms : List Form}
    (h : Form.trees forms = helpers.map Helper.tree) : helpersOfForms forms = .ok helpers := by
  induction helpers generalizing forms with
  | nil =>
      obtain rfl := eq_nil_of_trees h
      rfl
  | cons helper helpers ih =>
      obtain ⟨form, rest, rfl, isHelper, others⟩ := eq_cons_of_trees h
      have first := Helper.ofForm_of_tree (wellFormed helper (by simp)) isHelper
      have later := ih (fun other mem => wellFormed other (by simp [mem])) others
      simp [helpersOfForms, first, later]

theorem Helper.parse_of_spells {helper : Helper} (wellFormed : helper.body.WellFormed)
    {bare : Bool} {source : String} (spells : Spells bare source.toList helper.tree.lexemes) :
    Helper.parse source = .ok helper := by
  obtain ⟨form, read, isHelper⟩ := Form.readSingle_of_lexemes? spells.lexemes?
  simp [Helper.parse, read, Helper.ofForm_of_tree wellFormed isHelper]

theorem Bootstrap.parse_of_lexemes? {bootstrap : Bootstrap}
    (wellFormed : ∀ helper ∈ bootstrap.helpers, helper.body.WellFormed) {source : String}
    (spelt : Phase.gap.lexemes? source.toList = some bootstrap.tree.lexemes) :
    Bootstrap.parse source = .ok bootstrap := by
  obtain ⟨form, read, isBootstrap⟩ := Form.readSingle_of_lexemes? spelt
  obtain ⟨headSpan, versionSpan, rest, span, rfl, areHelpers⟩ := eq_list_of_tree_text isBootstrap
  simp [Bootstrap.parse, read, Bootstrap.ofForm, itemsAfter, Form.text?,
    helpersOfForms_of_trees wellFormed areHelpers]

theorem Bootstrap.parse_of_spells {bootstrap : Bootstrap}
    (wellFormed : ∀ helper ∈ bootstrap.helpers, helper.body.WellFormed)
    {bare : Bool} {source : String} (spells : Spells bare source.toList bootstrap.tree.lexemes) :
    Bootstrap.parse source = .ok bootstrap :=
  Bootstrap.parse_of_lexemes? wellFormed spells.lexemes?

end StepCode
