import StepCode.Form.Reader
import StepCode.Script.Basic

/-!
# Parsing scripts

From forms to scripts, helpers and bootstraps.  A script is `(script ("p" ...) STMT ...)`, a helper
`(helper name ("a" ...) E)` and a bootstrap `(bootstrap "version" HELPER ...)`.
-/

namespace StepCode

abbrev Parsed (α : Type) := Except ParseError α

def fail {α : Type} (problem : Problem) (span : Span) : Parsed α := .error ⟨problem, span⟩

/-- The text of a form that has to be a string. -/
def Form.asText (what : String) (form : Form) : Parsed String :=
  match form.text? with
  | some s => .ok s
  | none => fail (.expectedText what) form.span

mutual

def Expr.ofForm : Form → Parsed Expr
  | .atom (.number x) _ => .ok (.number x)
  | .atom (.text s) _ => .ok (.text s)
  | .atom (.symbol s) span =>
      if s = "true" then .ok (.bool true)
      else if s = "false" then .ok (.bool false)
      else fail (.unexpectedSymbol s) span
  | .list (.atom (.symbol head) headSpan :: rest) span =>
      if head = "get" then
        match rest with
        | [only] => return .var (← only.asText "a variable name")
        | _ => fail (.expectedText "a variable name") span
      else if head = "param" then
        match rest with
        | [only] => return .param (← only.asText "a parameter name")
        | _ => fail (.expectedText "a parameter name") span
      else if head = "helper" then
        match rest with
        | .atom (.symbol name) _ :: args => return .helper name (← exprsOfForms args)
        | _ => fail .calledHelperMissing span
      else if head = "report" then
        match rest with
        | [] => fail (.expectedText "an opcode") span
        | first :: args => do
            let opcode ← first.asText "an opcode"
            return .report opcode (← argsOfForms args)
      else if head = "?" then
        match rest with
        | [cond, yes, no] => do
            let cond ← Expr.ofForm cond
            let yes ← Expr.ofForm yes
            let no ← Expr.ofForm no
            return .choose cond yes no
        | _ => fail .chooseOperands span
      else
        match Builtin.ofSymbol? head with
        | none => fail (.unknownOperator head) headSpan
        | some op =>
            if op.arity.accepts rest.length then return .builtin op (← exprsOfForms rest)
            else fail (.operandCount head rest.length) span
  | .list _ span => fail .operatorMissing span

def exprsOfForms : List Form → Parsed (List Expr)
  | [] => .ok []
  | form :: rest => do
      let expr ← Expr.ofForm form
      return expr :: (← exprsOfForms rest)

/-- Named arguments `("NAME" E)`. -/
def argsOfForms : List Form → Parsed (List (String × Expr))
  | [] => .ok []
  | .list [name, value] _ :: rest =>
      match name.text? with
      | none => fail .argumentNameNotText name.span
      | some name => do
          let value ← Expr.ofForm value
          return (name, value) :: (← argsOfForms rest)
  | form :: _ => fail .expectedArgument form.span

end

mutual

def Stmt.ofForm : Form → Parsed Stmt
  | .atom _ span => fail .expectedStatement span
  | .list (.atom (.symbol head) headSpan :: rest) span =>
      if head = "set" ∨ head = "change" then
        match rest with
        | [] => fail (.expectedText "a variable name") span
        | first :: values => do
            let var ← first.asText "a variable name"
            match values with
            | [value] => do
                let value ← Expr.ofForm value
                return if head = "set" then .set var value else .change var value
            | _ => fail .expectedOneValue span
      else if head = "op" then
        match rest with
        | [] => fail (.expectedText "an opcode") span
        | first :: args => do
            let opcode ← first.asText "an opcode"
            return .op opcode (← argsOfForms args)
      else if head = "call" then
        match rest with
        | [] => fail (.expectedText "a signature") span
        | first :: args => do
            let signature ← first.asText "a signature"
            if signature.isEmpty then fail .emptySignature span
            else return .call signature (← exprsOfForms args)
      else if head = "yield" then
        if rest.isEmpty then .ok .yield else fail .yieldOperands span
      else if head = "repeat" then
        match rest with
        | [] => fail .countMissing span
        | count :: body => do
            let count ← Expr.ofForm count
            return .times count (← stmtsOfForms body)
      else if head = "forever" then
        return .forever (← stmtsOfForms rest)
      else if head = "while" ∨ head = "until" then
        match rest with
        | [] => fail .loopConditionMissing span
        | cond :: body => do
            let cond ← Expr.ofForm cond
            let body ← stmtsOfForms body
            return if head = "while" then .whileTrue cond body else .untilTrue cond body
      else if head = "if" then
        match rest with
        | [] => fail .ifConditionMissing span
        | cond :: clauses => do
            let cond ← Expr.ofForm cond
            let (yes, no) ← clausesOfForms [] [] clauses
            return .ifElse cond yes no
      else if head = "return" then
        match rest with
        | [] => .ok (.ret none)
        | [value] => return .ret (some (← Expr.ofForm value))
        | _ => fail .returnValues span
      else fail (.unknownStatement head) headSpan
  | .list _ span => fail .keywordMissing span

def stmtsOfForms : List Form → Parsed (List Stmt)
  | [] => .ok []
  | form :: rest => do
      let stmt ← Stmt.ofForm form
      return stmt :: (← stmtsOfForms rest)

/-- The clauses of an `if`; of several of one kind the last counts. -/
def clausesOfForms (yes no : List Stmt) : List Form → Parsed (List Stmt × List Stmt)
  | [] => .ok (yes, no)
  | .list (.atom (.symbol head) _ :: body) span :: rest =>
      if head = "then" then do
        let body ← stmtsOfForms body
        clausesOfForms body no rest
      else if head = "else" then do
        let body ← stmtsOfForms body
        clausesOfForms yes body rest
      else fail .expectedClause span
  | form :: _ => fail .expectedClause form.span

end

/-- Parameter names: a list of strings. -/
def namesOfForms : List Form → Parsed (List String)
  | [] => .ok []
  | form :: rest => do
      let name ← form.asText "a parameter"
      return name :: (← namesOfForms rest)

/-- The parameter list among the items of a unit; without one the whole unit is to blame. -/
def paramsOfForm (whole : Span) : Option Form → Parsed (List String)
  | some (.list items _) => namesOfForms items
  | some (.atom _ span) => fail .expectedParameters span
  | none => fail .expectedParameters whole

/-- The items behind the keyword of a list that has to start with `head`. -/
def itemsAfter (head : String) : Form → Parsed (List Form)
  | .list (.atom (.symbol first) _ :: rest) span =>
      if first = head then .ok rest else fail (.expectedHead head) span
  | form => fail (.expectedHead head) form.span

def Script.ofForm (form : Form) : Parsed Script := do
  let items ← itemsAfter "script" form
  let params ← paramsOfForm form.span items.head?
  return ⟨params, ← stmtsOfForms (items.drop 1)⟩

def Helper.ofForm (form : Form) : Parsed Helper := do
  let items ← itemsAfter "helper" form
  match items.head?.bind Form.symbol? with
  | none => fail .helperNameMissing form.span
  | some name =>
      let params ← paramsOfForm form.span items[1]?
      match items.drop 2 with
      | [body] => return ⟨name, params, ← Expr.ofForm body⟩
      | _ => fail .helperBodyNotSingle form.span

def helpersOfForms : List Form → Parsed (List Helper)
  | [] => .ok []
  | form :: rest => do
      let helper ← Helper.ofForm form
      return helper :: (← helpersOfForms rest)

def Bootstrap.ofForm (form : Form) : Parsed Bootstrap := do
  let items ← itemsAfter "bootstrap" form
  match items.head?.bind Form.text? with
  | none => fail .versionMissing form.span
  | some version => return ⟨version, ← helpersOfForms (items.drop 1)⟩

/-- The one form that a source has to consist of. -/
def Form.readSingle (source : String) : Parsed Form := do
  match ← Form.readAll source with
  | [form] => return form
  | [] => fail .emptySource ⟨0, source.utf8ByteSize⟩
  | _ :: second :: _ => fail .severalForms second.span

def Script.parse (source : String) : Parsed Script := do
  Script.ofForm (← Form.readSingle source)

def Helper.parse (source : String) : Parsed Helper := do
  Helper.ofForm (← Form.readSingle source)

def Bootstrap.parse (source : String) : Parsed Bootstrap := do
  Bootstrap.ofForm (← Form.readSingle source)

end StepCode
