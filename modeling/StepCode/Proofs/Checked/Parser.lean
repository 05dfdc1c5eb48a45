import StepCode.Proofs.Checked.Reader
import StepCode.Proofs.Form.Layout
import StepCode.Proofs.Script.Accepted

/-!
# The parser, slice by slice

The checked parser looks at the items of a list by their positions and cuts the rest of a list off
at fixed ones.  It goes down into lists by no more steps than it is given, which have to be more than
the form is deep.
-/

namespace StepCode

open Form (NestedIn)

namespace Checked

/-! ## Expressions -/

/-- The text of a form; where there is no form the span is to blame. -/
def textOf (form? : Option Form) (what : String) (span : Span) : Checked String :=
  match form?.bind Form.text? with
  | some s => return s
  | none => blame (.expectedText what) ((form?.map Form.span).getD span)

def singleText (rest : List Form) (what : String) (span : Span) : Checked String :=
  match rest with
  | [only] => textOf (some only) what only.span
  | _ => blame (.expectedText what) span

def namedArg (expr : Form → Checked Expr) : Form → Checked (String × Expr)
  | .list [name, value] _ =>
      match name.text? with
      | none => blame .argumentNameNotText name.span
      | some name => do
          let value ← expr value
          return (name, value)
  | form => blame .expectedArgument form.span

/-- An expression in which fewer lists than `fuel` stand inside each other. -/
def expr : (fuel : Nat) → Form → Checked Expr
  | 0, _ => stuck
  | _ + 1, .atom (.number x) _ => return .number x
  | _ + 1, .atom (.text s) _ => return .text s
  | _ + 1, .atom (.symbol s) span =>
      if s = "true" then return .bool true
      else if s = "false" then return .bool false
      else blame (.unexpectedSymbol s) span
  | fuel + 1, .list items span =>
      match (Form.list items span).head? with
      | none => blame .operatorMissing span
      | some head => do
          let rest ← sliceFrom items 1
          if head = "get" then return .var (← singleText rest "a variable name" span)
          else if head = "param" then return .param (← singleText rest "a parameter name" span)
          else if head = "helper" then
            match rest.head?.bind Form.symbol? with
            | none => blame .calledHelperMissing span
            | some name => do
                let args ← sliceFrom rest 1
                return .helper name (← args.mapM (expr fuel))
          else if head = "report" then do
            let opcode ← textOf rest.head? "an opcode" span
            let args ← sliceFrom rest 1
            return .report opcode (← args.mapM (namedArg (expr fuel)))
          else if head = "?" then
            match rest with
            | [cond, yes, no] => do
                let cond ← expr fuel cond
                let yes ← expr fuel yes
                let no ← expr fuel no
                return .choose cond yes no
            | _ => blame .chooseOperands span
          else
            match Builtin.ofSymbol? head with
            | none => do
                let first ← itemAt items 0
                blame (.unknownOperator head) first.span
            | some op =>
                if op.arity.accepts rest.length then
                  return .builtin op (← rest.mapM (expr fuel))
                else blame (.operandCount head rest.length) span

/-! ## Statements -/

def clauses (stmt : Form → Checked Stmt) (yes no : List Stmt) :
    List Form → Checked (List Stmt × List Stmt)
  | [] => return (yes, no)
  | clause :: rest =>
      if clause.head? = some "then" then do
        let body ← sliceFrom clause.items 1
        clauses stmt (← body.mapM stmt) no rest
      else if clause.head? = some "else" then do
        let body ← sliceFrom clause.items 1
        clauses stmt yes (← body.mapM stmt) rest
      else blame .expectedClause clause.span

/-- A statement in which fewer lists than `fuel` stand inside each other. -/
def stmt : (fuel : Nat) → Form → Checked Stmt
  | 0, _ => stuck
  | _ + 1, .atom _ span => blame .expectedStatement span
  | fuel + 1, .list items span =>
      match (Form.list items span).head? with
      | none => blame .keywordMissing span
      | some head => do
          let rest ← sliceFrom items 1
          if head = "set" ∨ head = "change" then do
            let var ← textOf rest.head? "a variable name" span
            match rest.drop 1 with
            | [value] => do
                let value ← expr fuel value
                return if head = "set" then .set var value else .change var value
            | _ => blame .expectedOneValue span
          else if head = "op" then do
            let opcode ← textOf rest.head? "an opcode" span
            let args ← sliceFrom rest 1
            return .op opcode (← args.mapM (namedArg (expr fuel)))
          else if head = "call" then do
            let signature ← textOf rest.head? "a signature" span
            if signature.isEmpty then blame .emptySignature span
            else do
              let args ← sliceFrom rest 1
              return .call signature (← args.mapM (expr fuel))
          else if head = "yield" then
            if rest.isEmpty then return .yield else blame .yieldOperands span
          else if head = "repeat" then
            match rest.head? with
            | none => blame .countMissing span
            | some count => do
                let count ← expr fuel count
                let body ← sliceFrom rest 1
                return .times count (← body.mapM (stmt fuel))
          else if head = "forever" then return .forever (← rest.mapM (stmt fuel))
          else if head = "while" ∨ head = "until" then
            match rest.head? with
            | none => blame .loopConditionMissing span
            | some cond => do
                let cond ← expr fuel cond
                let body ← sliceFrom rest 1
                let body ← body.mapM (stmt fuel)
                return if head = "while" then .whileTrue cond body else .untilTrue cond body
          else if head = "if" then
            match rest.head? with
            | none => blame .ifConditionMissing span
            | some cond => do
                let cond ← expr fuel cond
                let behind ← sliceFrom rest 1
                let (yes, no) ← clauses (stmt fuel) [] [] behind
                return .ifElse cond yes no
          else if head = "return" then
            match rest with
            | [] => return .ret none
            | [value] => return .ret (some (← expr fuel value))
            | _ => blame .returnValues span
          else do
            let first ← itemAt items 0
            blame (.unknownStatement head) first.span

/-! ## Units -/

/-- The items of a list that has to start with `head`, the head among them. -/
def headed (head : String) (form : Form) : Checked (List Form) :=
  if form.head? = some head then return form.items else blame (.expectedHead head) form.span

def names (whole : Span) : Option Form → Checked (List String)
  | some (.list items _) => items.mapM fun item => textOf (some item) "a parameter" item.span
  | some (.atom _ span) => blame .expectedParameters span
  | none => blame .expectedParameters whole

def script (fuel : Nat) (form : Form) : Checked Script := do
  let items ← headed "script" form
  let params ← names form.span items[1]?
  let body ← sliceFrom items (min 2 items.length)
  return ⟨params, ← body.mapM (stmt fuel)⟩

def helper (fuel : Nat) (form : Form) : Checked Helper := do
  let items ← headed "helper" form
  match items[1]?.bind Form.symbol? with
  | none => blame .helperNameMissing form.span
  | some name => do
      let params ← names form.span items[2]?
      match items.drop 3 with
      | [body] => return ⟨name, params, ← expr fuel body⟩
      | _ => blame .helperBodyNotSingle form.span

def bootstrap (fuel : Nat) (form : Form) : Checked Bootstrap := do
  let items ← headed "bootstrap" form
  match items[1]?.bind Form.text? with
  | none => blame .versionMissing form.span
  | some version => do
      let helpers ← sliceFrom items 2
      return ⟨version, ← helpers.mapM (helper fuel)⟩

end Checked

/-! ## Following the parser -/

/-- A named argument. -/
def argOfForm : Form → Parsed (String × Expr)
  | .list [name, value] _ =>
      match name.text? with
      | none => fail .argumentNameNotText name.span
      | some name => do
          let value ← Expr.ofForm value
          return (name, value)
  | form => fail .expectedArgument form.span

theorem argsOfForms_cons (form : Form) (rest : List Form) :
    argsOfForms (form :: rest) = do
      let arg ← argOfForm form
      return arg :: (← argsOfForms rest) := by
  match form with
  | .atom _ _ | .list [] _ | .list [_] _ | .list (_ :: _ :: _ :: _) _ => rfl
  | .list [name, value] _ =>
      rw [argsOfForms, argOfForm]
      cases name.text? with
      | none => rfl
      | some name => simp only [bind_assoc, pure_bind]

namespace Checked

/-- The span of the error is that of a form of the source. -/
def Known (source : List Form) (error : ParseError) : Prop :=
  ∃ form, NestedIn source form ∧ error.span = form.span

section

variable {source forms : List Form} {form : Form} {head : String} {span headSpan : Span}
  {fuel : Nat}

theorem known_of_nested (nested : NestedIn source form) (problem : Problem) :
    Known source ⟨problem, form.span⟩ := ⟨form, nested, rfl⟩

theorem sliceFrom_one (first : Form) (rest : List Form) :
    sliceFrom (first :: rest) 1 = pure rest :=
  if_pos (Nat.le_add_left 1 rest.length)

theorem textOf_follows (nested : NestedIn source form) (what : String) (span : Span) :
    Follows (Known source) (textOf (some form) what span) (form.asText what) := by
  unfold textOf Form.asText
  simp only [Option.bind_some, Option.map_some, Option.getD_some]
  cases form.text? with
  | none => exact .blame (known_of_nested nested _)
  | some s => exact .ok s

/-- A form of the source in which fewer lists than `fuel` stand inside each other. -/
structure Shallow (source : List Form) (fuel : Nat) (form : Form) : Prop where
  nested : NestedIn source form
  depth_lt : form.depth < fuel

namespace Shallow

theorem known (shallow : Shallow source fuel form) (problem : Problem) :
    Known source ⟨problem, form.span⟩ :=
  known_of_nested shallow.nested problem

theorem more (shallow : Shallow source fuel form) : Shallow source (fuel + 1) form :=
  ⟨shallow.nested, Nat.lt_succ_of_lt shallow.depth_lt⟩

theorem item {inner : Form} (shallow : Shallow source (fuel + 1) form) (mem : inner ∈ form.items) :
    Shallow source fuel inner := by
  obtain ⟨nested, depth_lt⟩ := shallow
  cases form with
  | atom value span => cases mem
  | list items span =>
      have below : Form.depthAll items < fuel := Nat.lt_of_succ_lt_succ depth_lt
      exact ⟨nested.item mem, Nat.lt_of_le_of_lt (Form.depth_le_depthAll mem) below⟩

/-- The items behind the first one. -/
theorem behind {first : Form} {rest : List Form}
    (shallow : Shallow source (fuel + 1) (.list (first :: rest) span)) :
    ∀ item ∈ rest, Shallow source fuel item :=
  fun _ mem => shallow.item (List.mem_cons_of_mem first mem)

end Shallow

/-- Whatever the parser makes of a form as an expression, the checked parser makes of it. -/
def FollowsExprs (source : List Form) (fuel : Nat) : Prop :=
  ∀ form, Shallow source fuel form → Follows (Known source) (expr fuel form) (Expr.ofForm form)

theorem exprs_follow (follows : FollowsExprs source fuel)
    (shallow : ∀ form ∈ forms, Shallow source fuel form) :
    Follows (Known source) (forms.mapM (expr fuel)) (exprsOfForms forms) :=
  .mapM exprsOfForms rfl (fun _ _ => rfl) fun form mem => follows form (shallow form mem)

theorem namedArg_follows (follows : FollowsExprs source fuel) (shallow : Shallow source fuel form) :
    Follows (Known source) (namedArg (expr fuel) form) (argOfForm form) := by
  match form with
  | .atom _ _ | .list [] _ | .list [_] _ | .list (_ :: _ :: _ :: _) _ =>
      exact .blame (shallow.known _)
  | .list [name, value] span =>
      have isItem : name ∈ [name, value] := List.mem_cons_self
      rw [namedArg, argOfForm]
      cases name.text? with
      | none => exact .blame (known_of_nested (shallow.nested.item isItem) _)
      | some name =>
          have value_shallow : Shallow source fuel value := shallow.more.item (by simp [Form.items])
          exact .bind (follows value value_shallow) fun value _ => .ok _

theorem args_follow (follows : FollowsExprs source fuel)
    (shallow : ∀ form ∈ forms, Shallow source fuel form) :
    Follows (Known source) (forms.mapM (namedArg (expr fuel))) (argsOfForms forms) :=
  .mapM argsOfForms rfl argsOfForms_cons fun form mem => namedArg_follows follows (shallow form mem)

/-- A list that starts with a keyword. -/
theorem expr_follows_keyword (follows : FollowsExprs source fuel)
    (shallow : Shallow source (fuel + 1) (.list (.atom (.symbol head) headSpan :: forms) span)) :
    Follows (Known source) (expr (fuel + 1) (.list (.atom (.symbol head) headSpan :: forms) span))
      (Expr.ofForm (.list (.atom (.symbol head) headSpan :: forms) span)) := by
  have items : ∀ item ∈ forms, Shallow source fuel item := shallow.behind
  unfold Expr.ofForm
  change Follows _ (sliceFrom _ 1 >>= _) _
  rw [sliceFrom_one, pure_bind]
  -- both parsers compare the keyword with the same ones in the same order
  refine .ite ?get (.ite ?param (.ite ?helper (.ite ?report (.ite ?choose ?operator))))
  case get | param =>
    match forms with
    | [only] => exact .bind (textOf_follows (items only (by simp)).nested _ _) fun name _ => .ok _
    | [] | _ :: _ :: _ => exact .blame (shallow.known _)
  case helper =>
    match forms with
    | .atom (.symbol name) _ :: args =>
        change Follows _ (sliceFrom _ 1 >>= _) _
        rw [sliceFrom_one, pure_bind]
        exact .bind (exprs_follow follows (List.forall_mem_cons.mp items).2) fun args _ => .ok _
    | [] | .list _ _ :: _ | .atom (.number _) _ :: _ | .atom (.text _) _ :: _ =>
        exact .blame (shallow.known _)
  case report =>
    match forms with
    | [] => exact .blame (shallow.known _)
    | first :: args =>
        obtain ⟨isOpcode, others⟩ := List.forall_mem_cons.mp items
        refine .bind (textOf_follows isOpcode.nested _ _) fun opcode _ => ?_
        rw [sliceFrom_one, pure_bind]
        exact .bind (args_follow follows others) fun args _ => .ok _
  case choose =>
    match forms with
    | [cond, yes, no] =>
        refine .bind (follows cond (items cond (by simp))) fun cond _ => ?_
        refine .bind (follows yes (items yes (by simp))) fun yes _ => ?_
        exact .bind (follows no (items no (by simp))) fun no _ => .ok _
    | [] | [_] | [_, _] | _ :: _ :: _ :: _ :: _ => exact .blame (shallow.known _)
  case operator =>
    cases Builtin.ofSymbol? head with
    | none => exact .blame (known_of_nested (shallow.nested.item List.mem_cons_self) _)
    | some op =>
        exact .ite (.bind (exprs_follow follows items) fun args _ => .ok _) (.blame (shallow.known _))

theorem expr_follows (source : List Form) (fuel : Nat) : FollowsExprs source fuel := by
  induction fuel with
  | zero => exact fun form shallow => absurd shallow.depth_lt (Nat.not_lt_zero _)
  | succ fuel ih =>
      intro form shallow
      cases form with
      | atom value span =>
          unfold Expr.ofForm
          cases value with
          | number x => exact .ok _
          | text s => exact .ok _
          | symbol s => exact .ite (.ok _) (.ite (.ok _) (.blame (shallow.known _)))
      | list items span =>
          rcases items with _ | ⟨⟨_ | _ | head, headSpan⟩ | _, rest⟩
          case cons.atom.symbol => exact expr_follows_keyword ih shallow
          -- no other list has a head
          all_goals exact .blame (shallow.known _)

/-! ### Statements -/

/-- Whatever the parser makes of a form as a statement, the checked parser makes of it. -/
def FollowsStmts (source : List Form) (fuel : Nat) : Prop :=
  ∀ form, Shallow source fuel form → Follows (Known source) (stmt fuel form) (Stmt.ofForm form)

theorem stmts_follow (follows : FollowsStmts source fuel)
    (shallow : ∀ form ∈ forms, Shallow source fuel form) :
    Follows (Known source) (forms.mapM (stmt fuel)) (stmtsOfForms forms) :=
  .mapM stmtsOfForms rfl (fun _ _ => rfl) fun form mem => follows form (shallow form mem)

theorem clauses_follow (follows : FollowsStmts source fuel)
    (shallow : ∀ form ∈ forms, Shallow source fuel form) (yes no : List Stmt) :
    Follows (Known source) (clauses (stmt fuel) yes no forms) (clausesOfForms yes no forms) := by
  induction forms generalizing yes no with
  | nil => exact .ok _
  | cons clause rest ih =>
      obtain ⟨isClause, others⟩ := List.forall_mem_cons.mp shallow
      match clause with
      | .atom _ _ | .list [] _ | .list (.list _ _ :: _) _ | .list (.atom (.number _) _ :: _) _
      | .list (.atom (.text _) _ :: _) _ =>
          exact .blame (isClause.known _)
      | .list (.atom (.symbol head) headSpan :: body) span =>
          have isBody := stmts_follow follows isClause.more.behind
          rw [clauses, clausesOfForms]
          simp only [Form.head?, Form.symbol?, Option.some.injEq, Form.items, sliceFrom_one,
            pure_bind]
          refine .ite ?thenClause (.ite ?elseClause ?neither)
          case thenClause => exact .bind isBody fun body _ => ih others body no
          case elseClause => exact .bind isBody fun body _ => ih others yes body
          case neither => exact .blame (isClause.known _)

/-- A list that starts with a keyword. -/
theorem stmt_follows_keyword (follows : FollowsStmts source fuel)
    (shallow : Shallow source (fuel + 1) (.list (.atom (.symbol head) headSpan :: forms) span)) :
    Follows (Known source) (stmt (fuel + 1) (.list (.atom (.symbol head) headSpan :: forms) span))
      (Stmt.ofForm (.list (.atom (.symbol head) headSpan :: forms) span)) := by
  have items : ∀ item ∈ forms, Shallow source fuel item := shallow.behind
  have values : FollowsExprs source fuel := expr_follows source fuel
  unfold Stmt.ofForm
  change Follows _ (sliceFrom _ 1 >>= _) _
  rw [sliceFrom_one, pure_bind]
  refine .ite ?set (.ite ?op (.ite ?call (.ite ?yield (.ite ?times (.ite ?forever (.ite ?loop
    (.ite ?branches (.ite ?ret ?unknown))))))))
  case set =>
    match forms with
    | [] => exact .blame (shallow.known _)
    | first :: rest =>
        refine .bind (textOf_follows (items first (by simp)).nested _ _) fun var _ => ?_
        match rest with
        | [value] => exact .bind (values value (items value (by simp))) fun value _ => .ok _
        | [] | _ :: _ :: _ => exact .blame (shallow.known _)
  case op =>
    match forms with
    | [] => exact .blame (shallow.known _)
    | first :: args =>
        obtain ⟨isOpcode, others⟩ := List.forall_mem_cons.mp items
        refine .bind (textOf_follows isOpcode.nested _ _) fun opcode _ => ?_
        rw [sliceFrom_one, pure_bind]
        exact .bind (args_follow values others) fun args _ => .ok _
  case call =>
    match forms with
    | [] => exact .blame (shallow.known _)
    | first :: args =>
        obtain ⟨isSignature, others⟩ := List.forall_mem_cons.mp items
        refine .bind (textOf_follows isSignature.nested _ _) fun signature _ => ?_
        rw [sliceFrom_one, pure_bind]
        exact .ite (.blame (shallow.known _)) (.bind (exprs_follow values others) fun args _ => .ok _)
  case yield => exact .ite (.ok _) (.blame (shallow.known _))
  case times =>
    match forms with
    | [] => exact .blame (shallow.known _)
    | count :: body =>
        obtain ⟨isCount, others⟩ := List.forall_mem_cons.mp items
        refine .bind (values count isCount) fun count _ => ?_
        rw [sliceFrom_one, pure_bind]
        exact .bind (stmts_follow follows others) fun body _ => .ok _
  case forever => exact .bind (stmts_follow follows items) fun body _ => .ok _
  case loop =>
    match forms with
    | [] => exact .blame (shallow.known _)
    | cond :: body =>
        obtain ⟨isCond, others⟩ := List.forall_mem_cons.mp items
        refine .bind (values cond isCond) fun cond _ => ?_
        rw [sliceFrom_one, pure_bind]
        exact .bind (stmts_follow follows others) fun body _ => .ok _
  case branches =>
    match forms with
    | [] => exact .blame (shallow.known _)
    | cond :: behind =>
        obtain ⟨isCond, others⟩ := List.forall_mem_cons.mp items
        refine .bind (values cond isCond) fun cond _ => ?_
        rw [sliceFrom_one, pure_bind]
        exact .bind (clauses_follow follows others [] []) fun bodies _ => .ok _
  case ret =>
    match forms with
    | [] => exact .ok _
    | [value] => exact .bind (values value (items value (by simp))) fun value _ => .ok _
    | _ :: _ :: _ => exact .blame (shallow.known _)
  case unknown => exact .blame (known_of_nested (shallow.nested.item List.mem_cons_self) _)

theorem stmt_follows (source : List Form) (fuel : Nat) : FollowsStmts source fuel := by
  induction fuel with
  | zero => exact fun form shallow => absurd shallow.depth_lt (Nat.not_lt_zero _)
  | succ fuel ih =>
      intro form shallow
      cases form with
      | atom value span => exact .blame (shallow.known _)
      | list items span =>
          rcases items with _ | ⟨⟨_ | _ | head, headSpan⟩ | _, rest⟩
          case cons.atom.symbol => exact stmt_follows_keyword ih shallow
          all_goals exact .blame (shallow.known _)

/-! ### Units -/

/-- Behind the head of a unit: of the items of the list the first one is the head. -/
theorem headed_follows {α : Type} {head : String} {next : List Form → Checked α}
    {later : List Form → Parsed α} (shallow : Shallow source fuel form)
    (rest : ∀ first items, (∀ item ∈ items, Shallow source fuel item) →
      Follows (Known source) (next (first :: items)) (later items)) :
    Follows (Known source) (headed head form >>= next) (itemsAfter head form >>= later) := by
  match form with
  | .atom _ _ | .list [] _ | .list (.list _ _ :: _) _ | .list (.atom (.number _) _ :: _) _
  | .list (.atom (.text _) _ :: _) _ => exact .blame (shallow.known _)
  | .list (.atom (.symbol first) headSpan :: items) span =>
      unfold headed itemsAfter
      simp only [Form.head?, Form.symbol?, Option.some.injEq]
      split_ifs
      · exact rest _ items shallow.more.behind
      · exact .blame (shallow.known _)

theorem names_follow {form? : Option Form} (isNested : NestedIn source form)
    (nested : ∀ item ∈ form?, NestedIn source item) :
    Follows (Known source) (names form.span form?) (paramsOfForm form.span form?) := by
  match form? with
  | none => exact .blame (known_of_nested isNested _)
  | some (.atom value span) => exact .blame (known_of_nested (nested _ rfl) _)
  | some (.list items span) =>
      exact .mapM namesOfForms rfl (fun _ _ => rfl) fun item mem =>
        textOf_follows ((nested _ rfl).item mem) _ _

theorem script_follows (shallow : Shallow source fuel form) :
    Follows (Known source) (script fuel form) (Script.ofForm form) := by
  refine headed_follows shallow fun first items areShallow => ?_
  rw [List.getElem?_cons_succ, ← List.head?_eq_getElem?]
  refine .bind (names_follow shallow.nested fun item mem =>
    (areShallow item (List.mem_of_mem_head? mem)).nested) fun params _ => ?_
  have slice : sliceFrom (first :: items) (min 2 (first :: items).length) =
      pure (items.drop 1) := by
    cases items <;> rfl
  rw [slice, pure_bind]
  exact .bind (stmts_follow (stmt_follows source fuel) fun item mem =>
    areShallow item (List.mem_of_mem_drop mem)) fun body _ => .ok _

theorem helper_follows (shallow : Shallow source fuel form) :
    Follows (Known source) (helper fuel form) (Helper.ofForm form) := by
  refine headed_follows shallow fun first items areShallow => ?_
  rw [List.getElem?_cons_succ, ← List.head?_eq_getElem?]
  cases items.head?.bind Form.symbol? with
  | none => exact .blame (shallow.known _)
  | some name =>
      simp only [List.getElem?_cons_succ, List.drop_succ_cons]
      refine .bind (names_follow shallow.nested fun item mem =>
        (areShallow item (List.mem_of_getElem? mem)).nested) fun params _ => ?_
      rcases isBody : items.drop 2 with _ | ⟨body, _ | _⟩
      case cons.nil =>
        have mem : body ∈ items := List.mem_of_mem_drop (isBody ▸ List.mem_singleton_self body)
        exact .bind (expr_follows source fuel body (areShallow body mem)) fun body _ => .ok _
      all_goals exact .blame (shallow.known _)

theorem bootstrap_follows (shallow : Shallow source fuel form) :
    Follows (Known source) (bootstrap fuel form) (Bootstrap.ofForm form) := by
  refine headed_follows shallow fun first items areShallow => ?_
  rw [List.getElem?_cons_succ, ← List.head?_eq_getElem?]
  match items with
  | [] => exact .blame (shallow.known _)
  | version :: helpers =>
      rw [List.head?_cons, Option.bind_some, List.drop_succ_cons, List.drop_zero]
      cases version.text? with
      | none => exact .blame (shallow.known _)
      | some version =>
          refine .bind ?_ fun helpers _ => .ok _
          exact .mapM helpersOfForms rfl (fun _ _ => rfl) fun item mem =>
            helper_follows (areShallow item (List.mem_cons_of_mem _ mem))

end

end Checked

end StepCode
