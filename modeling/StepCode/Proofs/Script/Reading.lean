import StepCode.Proofs.Decimal.ReadBack
import StepCode.Proofs.Script.Inverse

/-!
# Helpers behind size reduction

Nothing of a form is lost when it is parsed as an expression or a helper: the form of the result is
the form that was parsed.  So a helper that is accepted is accepted from its size-reduced text as
well.  It is the same helper but for infinite numbers, which come back as the conversions that they
are written as.
-/

namespace StepCode

/-! ## The form of what is parsed -/

namespace Form

theorem text_of_text? {form : Form} {s : String} (isText : form.text? = some s) :
    form.tree = .text s := by
  unfold text? at isText
  split at isText
  · obtain rfl := Option.some.inj isText
    rfl
  · cases isText

theorem text_of_asText (what : String) (form : Form) :
    Gives (fun s => form.tree = .text s) (form.asText what) := by
  unfold asText
  split
  next isText => exact .ok (text_of_text? isText)
  next => exact .fail _ _

/-- Whatever expression is parsed from the form has this form. -/
def IsTreeOfExpr (form : Form) : Prop :=
  Gives (fun expr => form.tree = expr.tree) (Expr.ofForm form)

end Form

open Form (IsTreeOfExpr)

theorem Builtin.symbol_of_ofSymbol? {head : String} {op : Builtin}
    (found : Builtin.ofSymbol? head = some op) : op.symbol = head := by
  simpa using List.find?_some found

section

variable {forms : List Form}

theorem exprTrees_of_ofForms (each : ∀ form ∈ forms, IsTreeOfExpr form) :
    Gives (fun exprs => Form.trees forms = exprTrees exprs) (exprsOfForms forms) := by
  induction forms with
  | nil => exact .ok rfl
  | cons form rest ih =>
      obtain ⟨here, there⟩ := List.forall_mem_cons.mp each
      refine .bind here fun expr isExpr => ?_
      refine .bind (ih there) fun exprs areExprs => ?_
      exact .pure (by rw [Form.trees, exprTrees, isExpr, areExprs])

theorem argTrees_of_ofForms (each : ∀ form ∈ forms, ∀ item ∈ form.items, IsTreeOfExpr item) :
    Gives (fun args => Form.trees forms = argTrees args) (argsOfForms forms) := by
  induction forms with
  | nil => exact .ok rfl
  | cons form rest ih =>
      obtain ⟨here, there⟩ := List.forall_mem_cons.mp each
      unfold argsOfForms
      split
      next same => cases same
      next name value span others same =>
        obtain ⟨rfl, rfl⟩ := List.cons.inj same
        split
        next => exact .fail _ _
        next isName =>
          refine .bind (here value (by simp [Form.items])) fun expr isExpr => ?_
          refine .bind (ih there) fun args areArgs => .pure ?_
          rw [Form.trees, areArgs, argTrees, Form.tree, Form.trees, Form.trees, Form.trees,
            Form.text_of_text? isName, isExpr]
      next => exact .fail _ _

/-- A list that starts with a keyword, given what its other items and their items are parsed as. -/
theorem Expr.tree_of_keyword {head : String} {headSpan span : Span}
    (each : ∀ form ∈ forms, IsTreeOfExpr form)
    (inner : ∀ form ∈ forms, ∀ item ∈ form.items, IsTreeOfExpr item) :
    IsTreeOfExpr (.list (.atom (.symbol head) headSpan :: forms) span) := by
  have whole : (Form.list (.atom (.symbol head) headSpan :: forms) span).tree =
      .list (.symbol head :: Form.trees forms) := rfl
  unfold IsTreeOfExpr Expr.ofForm
  rw [whole]
  split_ifs with isGet isParam isHelper isReport isChoose
  · split
    next only =>
      refine .bind (Form.text_of_asText _ only) fun name isName => .pure ?_
      rw [Expr.tree, isGet, Form.trees, Form.trees, isName]
    next => exact .fail _ _
  · split
    next only =>
      refine .bind (Form.text_of_asText _ only) fun name isName => .pure ?_
      rw [Expr.tree, isParam, Form.trees, Form.trees, isName]
    next => exact .fail _ _
  · split
    next name at_ args =>
      refine .bind (exprTrees_of_ofForms (List.forall_mem_cons.mp each).2) fun exprs areExprs => ?_
      exact .pure (by rw [Expr.tree, isHelper, Form.trees, areExprs]; rfl)
    next => exact .fail _ _
  · split
    next => exact .fail _ _
    next first args =>
      refine .bind (Form.text_of_asText _ first) fun opcode isOpcode => ?_
      refine .bind (argTrees_of_ofForms (List.forall_mem_cons.mp inner).2) fun named areNamed => ?_
      exact .pure (by rw [Expr.tree, isReport, Form.trees, isOpcode, areNamed])
  · split
    next cond yes no =>
      refine .bind (each cond (by simp)) fun condExpr isCond => ?_
      refine .bind (each yes (by simp)) fun yesExpr isYes => ?_
      refine .bind (each no (by simp)) fun noExpr isNo => .pure ?_
      rw [Expr.tree, isChoose, Form.trees, Form.trees, Form.trees, Form.trees, isCond, isYes, isNo]
    next => exact .fail _ _
  · split
    next => exact .fail _ _
    next op found =>
      split_ifs
      · refine .bind (exprTrees_of_ofForms each) fun exprs areExprs => .pure ?_
        rw [Expr.tree, Builtin.symbol_of_ofSymbol? found, areExprs]
      · exact .fail _ _

/-- The items of a form are considered as well, since the value of a named argument is an item of an
item. -/
theorem Expr.tree_of_ofForm (form : Form) :
    IsTreeOfExpr form ∧ ∀ item ∈ form.items, IsTreeOfExpr item := by
  induction form using Form.induction with
  | atom value span =>
      refine ⟨?_, by simp [Form.items]⟩
      cases value with
      | number x => exact .ok rfl
      | text s => exact .ok rfl
      | symbol s =>
          unfold IsTreeOfExpr Expr.ofForm
          split_ifs with isTrue isFalse
          · exact .ok (by rw [isTrue]; rfl)
          · exact .ok (by rw [isFalse]; rfl)
          · exact .fail _ _
  | list items span ih =>
      refine ⟨?_, fun item mem => (ih item mem).1⟩
      rcases items with _ | ⟨⟨⟨value⟩ | ⟨text⟩ | ⟨head⟩, headSpan⟩ | ⟨inner, innerSpan⟩, rest⟩
      case cons.atom.symbol =>
        obtain ⟨-, parts⟩ := List.forall_mem_cons.mp ih
        exact Expr.tree_of_keyword (fun form mem => (parts form mem).1)
          (fun form mem => (parts form mem).2)
      all_goals exact .fail .operatorMissing span

end

theorem tree_of_itemsAfter (head : String) (form : Form) :
    Gives (fun items => form.tree = .list (.symbol head :: Form.trees items))
      (itemsAfter head form) := by
  unfold itemsAfter
  split
  next first _ rest span =>
    split
    next same => exact .ok (by rw [← same]; rfl)
    next => exact .fail _ _
  next => exact .fail _ _

theorem trees_of_namesOfForms (forms : List Form) :
    Gives (fun names => Form.trees forms = names.map .text) (namesOfForms forms) := by
  induction forms with
  | nil => exact .ok rfl
  | cons form rest ih =>
      refine .bind (Form.text_of_asText _ form) fun name isName => ?_
      refine .bind ih fun names areNames => ?_
      exact .pure (by rw [Form.trees, isName, areNames]; rfl)

theorem tree_of_paramsOfForm (whole : Span) (form : Option Form) :
    Gives (fun params => ∃ list, form = some list ∧ list.tree = .list (params.map .text))
      (paramsOfForm whole form) := by
  unfold paramsOfForm
  split
  next items span =>
    intro params areParams
    exact ⟨_, rfl, by rw [Form.tree, trees_of_namesOfForms items params areParams]⟩
  next => exact .fail _ _
  next => exact .fail _ _

/-- Whatever helper is parsed from a form has this form. -/
theorem Helper.tree_of_ofForm (form : Form) :
    Gives (fun helper => form.tree = helper.tree) (Helper.ofForm form) := by
  refine .bind (tree_of_itemsAfter "helper" form) fun items isForm => ?_
  split
  next => exact .fail _ _
  next name isName =>
    obtain ⟨nameSpan, behind, rfl⟩ := exists_of_head_symbol isName
    refine .bind (tree_of_paramsOfForm _ _) fun params areParams => ?_
    obtain ⟨list, isList, isTree⟩ := areParams
    split
    next body isBody =>
      refine .bind (Expr.tree_of_ofForm body).1 fun expr isExpr => .pure ?_
      obtain rfl : behind = [list, body] := by
        cases behind with
        | nil => simp at isList
        | cons first rest => simp_all
      rw [isForm, Helper.tree, Form.trees, Form.trees, Form.trees, Form.trees, isTree, isExpr]
      rfl
    next => exact .fail _ _

/-! ## Infinite numbers -/

mutual

/-- An expression as it is parsed from its size-reduced text. -/
def Expr.spelledOut : Expr → Expr
  | .number x =>
      if x.isInf then .builtin .num [.text (if x > 0.0 then "Infinity" else "-Infinity")]
      else .number x
  | .text s => .text s
  | .bool b => .bool b
  | .var name => .var name
  | .param name => .param name
  | .helper name args => .helper name (spelledOutExprs args)
  | .report opcode args => .report opcode (spelledOutArgs args)
  | .choose cond yes no => .choose cond.spelledOut yes.spelledOut no.spelledOut
  | .builtin op args => .builtin op (spelledOutExprs args)

def spelledOutExprs : List Expr → List Expr
  | [] => []
  | expr :: rest => expr.spelledOut :: spelledOutExprs rest

def spelledOutArgs : List (String × Expr) → List (String × Expr)
  | [] => []
  | (name, value) :: rest => (name, value.spelledOut) :: spelledOutArgs rest

end

theorem length_spelledOutExprs (args : List Expr) : (spelledOutExprs args).length = args.length := by
  induction args with
  | nil => rfl
  | cons arg rest ih => simp [spelledOutExprs, ih]

mutual

theorem Expr.tree_spelledOut (expr : Expr) : expr.tree.spelledOut = expr.spelledOut.tree := by
  match expr with
  | .number x =>
      simp only [Expr.tree, Tree.spelledOut, Atom.spelledOut, Expr.spelledOut]
      split <;> rfl
  | .text _ | .bool _ | .var _ | .param _ => rfl
  | .helper name args =>
      simp [Expr.tree, Tree.symbol, Tree.spelledOut, Tree.spelledOutAll, Atom.spelledOut,
        Expr.spelledOut, exprTrees_spelledOut args]
  | .report opcode args =>
      simp [Expr.tree, Tree.symbol, Tree.text, Tree.spelledOut, Tree.spelledOutAll,
        Atom.spelledOut, Expr.spelledOut, argTrees_spelledOut args]
  | .choose cond yes no =>
      simp [Expr.tree, Tree.symbol, Tree.spelledOut, Tree.spelledOutAll, Atom.spelledOut,
        Expr.spelledOut, cond.tree_spelledOut, yes.tree_spelledOut, no.tree_spelledOut]
  | .builtin op args =>
      simp [Expr.tree, Tree.symbol, Tree.spelledOut, Tree.spelledOutAll, Atom.spelledOut,
        Expr.spelledOut, exprTrees_spelledOut args]

theorem exprTrees_spelledOut (args : List Expr) :
    Tree.spelledOutAll (exprTrees args) = exprTrees (spelledOutExprs args) := by
  match args with
  | [] => rfl
  | arg :: args =>
      simp [exprTrees, Tree.spelledOutAll, spelledOutExprs, arg.tree_spelledOut,
        exprTrees_spelledOut args]

theorem argTrees_spelledOut (args : List (String × Expr)) :
    Tree.spelledOutAll (argTrees args) = argTrees (spelledOutArgs args) := by
  match args with
  | [] => rfl
  | (name, value) :: args =>
      simp [argTrees, Tree.text, Tree.spelledOut, Tree.spelledOutAll, Atom.spelledOut,
        spelledOutArgs, value.tree_spelledOut, argTrees_spelledOut args]

end

mutual

/-- Every number that is left has a text that reads back. -/
theorem Expr.wellFormed_spelledOut (expr : Expr) (regular : expr.Regular)
    (notNaN : ∀ x ∈ expr.numbers, x.isNaN = false) : expr.spelledOut.WellFormed := by
  match expr with
  | .number x =>
      rw [Expr.spelledOut]
      split
      next => exact ⟨rfl, trivial, trivial⟩
      next finite =>
        have notNaN := notNaN x (by simp [Expr.numbers])
        exact Number.readsBack_of_isFinite (Form.isFinite_of_number notNaN (by simpa using finite))
  | .text _ | .bool _ | .var _ | .param _ => trivial
  | .helper name args => exact ⟨regular.1, exprsWellFormed_spelledOut args regular.2 notNaN⟩
  | .report opcode args => exact argsWellFormed_spelledOut args regular notNaN
  | .choose cond yes no =>
      refine ⟨cond.wellFormed_spelledOut regular.1 fun x mem => notNaN x ?_,
        yes.wellFormed_spelledOut regular.2.1 fun x mem => notNaN x ?_,
        no.wellFormed_spelledOut regular.2.2 fun x mem => notNaN x ?_⟩ <;>
        simp [Expr.numbers, mem]
  | .builtin op args =>
      refine ⟨?_, exprsWellFormed_spelledOut args regular.2 notNaN⟩
      rw [length_spelledOutExprs]
      exact regular.1

theorem exprsWellFormed_spelledOut (args : List Expr) (regular : ExprsRegular args)
    (notNaN : ∀ x ∈ exprNumbers args, x.isNaN = false) : ExprsWellFormed (spelledOutExprs args) := by
  match args with
  | [] => trivial
  | arg :: args =>
      refine ⟨arg.wellFormed_spelledOut regular.1 fun x mem => notNaN x ?_,
        exprsWellFormed_spelledOut args regular.2 fun x mem => notNaN x ?_⟩ <;>
        simp [exprNumbers, mem]

theorem argsWellFormed_spelledOut (args : List (String × Expr)) (regular : ArgsRegular args)
    (notNaN : ∀ x ∈ argNumbers args, x.isNaN = false) : ArgsWellFormed (spelledOutArgs args) := by
  match args with
  | [] => trivial
  | (name, value) :: args =>
      refine ⟨value.wellFormed_spelledOut regular.1 fun x mem => notNaN x ?_,
        argsWellFormed_spelledOut args regular.2 fun x mem => notNaN x ?_⟩ <;>
        simp [argNumbers, mem]

end

mutual

theorem Expr.spelledOut_of_finite (expr : Expr) (finite : ∀ x ∈ expr.numbers, x.isInf = false) :
    expr.spelledOut = expr := by
  match expr with
  | .number x => simp [Expr.spelledOut, finite x (by simp [Expr.numbers])]
  | .text _ | .bool _ | .var _ | .param _ => rfl
  | .helper name args => rw [Expr.spelledOut, spelledOutExprs_of_finite args finite]
  | .report opcode args => rw [Expr.spelledOut, spelledOutArgs_of_finite args finite]
  | .choose cond yes no =>
      rw [Expr.spelledOut,
        cond.spelledOut_of_finite fun x mem => finite x (by simp [Expr.numbers, mem]),
        yes.spelledOut_of_finite fun x mem => finite x (by simp [Expr.numbers, mem]),
        no.spelledOut_of_finite fun x mem => finite x (by simp [Expr.numbers, mem])]
  | .builtin op args => rw [Expr.spelledOut, spelledOutExprs_of_finite args finite]

theorem spelledOutExprs_of_finite (args : List Expr)
    (finite : ∀ x ∈ exprNumbers args, x.isInf = false) : spelledOutExprs args = args := by
  match args with
  | [] => rfl
  | arg :: args =>
      rw [spelledOutExprs,
        arg.spelledOut_of_finite fun x mem => finite x (by simp [exprNumbers, mem]),
        spelledOutExprs_of_finite args fun x mem => finite x (by simp [exprNumbers, mem])]

theorem spelledOutArgs_of_finite (args : List (String × Expr))
    (finite : ∀ x ∈ argNumbers args, x.isInf = false) : spelledOutArgs args = args := by
  match args with
  | [] => rfl
  | (name, value) :: args =>
      rw [spelledOutArgs,
        value.spelledOut_of_finite fun x mem => finite x (by simp [argNumbers, mem]),
        spelledOutArgs_of_finite args fun x mem => finite x (by simp [argNumbers, mem])]

end

/-! ## Sources of helpers -/

/-- No number of the source is out of range. -/
def Form.InRange (source : String) : Prop :=
  ∀ forms, readAll source = .ok forms → ∀ x ∈ numbers forms, x.isInf = false

namespace Helper

/-- A helper as it is parsed from its size-reduced text. -/
def spelledOut (helper : Helper) : Helper := { helper with body := helper.body.spelledOut }

variable {source : String} {helper : Helper}

/-- The one form of a source that is accepted, and what is known of its tokens. -/
theorem form_of_parse (parsed : Helper.parse source = .ok helper) :
    ∃ form, Form.readAll source = .ok [form] ∧ form.tree = helper.tree ∧
      From (Form.lexemes [form]) helper.Regular helper.numbers := by
  obtain ⟨form, read, isHelper⟩ := bind_eq_ok.mp parsed
  have readAll := Form.readAll_of_readSingle read
  refine ⟨form, readAll, Helper.tree_of_ofForm form helper isHelper, ?_⟩
  refine Helper.from_ofForm (fun s mem => Form.readAll_readable readAll mem) ?_ helper isHelper
  rw [Form.Within, Form.lexemes_singleton]
  exact List.Subset.refl _

/-- A source that is accepted spells its helper. -/
theorem lexemes?_of_parse (parsed : Helper.parse source = .ok helper) :
    Phase.gap.lexemes? source.toList = some helper.tree.lexemes := by
  obtain ⟨form, read, isTree, -⟩ := form_of_parse parsed
  rw [Form.lexemes?_of_readAll read, Form.lexemes_singleton, isTree]

theorem spelledOut_writable (parsed : Helper.parse source = .ok helper) :
    helper.spelledOut.body.WellFormed ∧ IsSymbol helper.spelledOut.name := by
  obtain ⟨form, read, -, ⟨isSymbol, regular⟩, among⟩ := form_of_parse parsed
  refine ⟨helper.body.wellFormed_spelledOut regular fun x mem => ?_, isSymbol⟩
  exact Form.readAll_readable read (among x mem)

theorem spelledOut_of_inRange (parsed : Helper.parse source = .ok helper)
    (inRange : Form.InRange source) : helper.spelledOut = helper := by
  obtain ⟨form, read, -, -, among⟩ := form_of_parse parsed
  rw [spelledOut, helper.body.spelledOut_of_finite fun x mem =>
    inRange _ read x (Form.mem_numbers.mpr (among x mem))]

theorem tree_spelledOut (helper : Helper) : helper.tree.spelledOut = helper.spelledOut.tree := by
  have names : ∀ params : List String,
      Tree.spelledOutAll (params.map .text) = params.map .text := by
    intro params
    induction params with
    | nil => rfl
    | cons name rest ih => simp [Tree.spelledOutAll, Tree.text, Tree.spelledOut, Atom.spelledOut, ih]
  simp [tree, spelledOut, Tree.symbol, Tree.spelledOut, Tree.spelledOutAll, Atom.spelledOut, names,
    helper.body.tree_spelledOut]

/-- A helper that is accepted survives size reduction. -/
theorem minify_of_parse (parsed : Helper.parse source = .ok helper) :
    ∃ text, Form.minify source = .ok text ∧
      Spells true text.toList helper.spelledOut.tree.lexemes := by
  obtain ⟨form, read, isTree, -⟩ := form_of_parse parsed
  obtain ⟨text, minified, spells⟩ := Form.minify_of_readAll read fun value mem =>
    Form.legible_of_readAll read mem
  refine ⟨text, minified, ?_⟩
  simpa [Form.trees, Tree.spelledOutAll, Tree.allLexemes, isTree, tree_spelledOut] using spells

end Helper

end StepCode
