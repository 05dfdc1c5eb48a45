import StepCode.Form.Compact
import StepCode.Script.Basic

/-!
# Printing scripts

The canonical layout: one statement a line, two blanks a level.
-/

namespace StepCode

/-- The blanks in front of a statement. -/
def indent (depth : Nat) : String :=
  String.ofList (List.replicate (2 * depth) ' ')

/-- Strings with a blank between them. -/
def quotedNames : List String → String
  | [] => ""
  | [name] => Form.quote name
  | name :: rest => Form.quote name ++ " " ++ quotedNames rest

mutual

def Expr.print : Expr → String
  | .number x => Form.numberText x
  | .text s => Form.quote s
  | .bool b => if b then "true" else "false"
  | .var name => "(get " ++ Form.quote name ++ ")"
  | .param name => "(param " ++ Form.quote name ++ ")"
  | .helper name args => "(helper " ++ name ++ printExprs args ++ ")"
  | .report opcode args => "(report " ++ Form.quote opcode ++ printArgs args ++ ")"
  | .choose cond yes no => "(? " ++ cond.print ++ " " ++ yes.print ++ " " ++ no.print ++ ")"
  | .builtin op args => "(" ++ op.symbol ++ printExprs args ++ ")"

/-- Expressions with a blank in front of each. -/
def printExprs : List Expr → String
  | [] => ""
  | arg :: rest => " " ++ arg.print ++ printExprs rest

/-- Named arguments with a blank in front of each. -/
def printArgs : List (String × Expr) → String
  | [] => ""
  | (name, value) :: rest =>
      " (" ++ Form.quote name ++ " " ++ value.print ++ ")" ++ printArgs rest

end

mutual

/-- A statement at nesting depth `depth`. -/
def Stmt.printAt (depth : Nat) : Stmt → String
  | .set var value => indent depth ++ "(set " ++ Form.quote var ++ " " ++ value.print ++ ")"
  | .change var amount =>
      indent depth ++ "(change " ++ Form.quote var ++ " " ++ amount.print ++ ")"
  | .op opcode args => indent depth ++ "(op " ++ Form.quote opcode ++ printArgs args ++ ")"
  | .call signature args =>
      indent depth ++ "(call " ++ Form.quote signature ++ printExprs args ++ ")"
  | .yield => indent depth ++ "(yield)"
  | .times count body =>
      indent depth ++ "(repeat " ++ count.print ++ printBody (depth + 1) body ++ ")"
  | .forever body => indent depth ++ "(forever" ++ printBody (depth + 1) body ++ ")"
  | .whileTrue cond body =>
      indent depth ++ "(while " ++ cond.print ++ printBody (depth + 1) body ++ ")"
  | .untilTrue cond body =>
      indent depth ++ "(until " ++ cond.print ++ printBody (depth + 1) body ++ ")"
  | .ifElse cond yes no =>
      indent depth ++ "(if " ++ cond.print ++ "\n" ++ indent (depth + 1) ++ "(then" ++
        printBody (depth + 2) yes ++ ")" ++
        (match no with
        | [] => ""
        | _ :: _ => "\n" ++ indent (depth + 1) ++ "(else" ++ printBody (depth + 2) no ++ ")") ++
        ")"
  | .ret none => indent depth ++ "(return)"
  | .ret (some value) => indent depth ++ "(return " ++ value.print ++ ")"

/-- Statements with a line break in front of each. -/
def printBody (depth : Nat) : List Stmt → String
  | [] => ""
  | stmt :: rest => "\n" ++ stmt.printAt depth ++ printBody depth rest

end

def Stmt.print (stmt : Stmt) : String := stmt.printAt 0

def Script.print (script : Script) : String :=
  "(script (" ++ quotedNames script.params ++ ")" ++ printBody 1 script.body ++ ")"

def Helper.print (helper : Helper) : String :=
  "(helper " ++ helper.name ++ " (" ++ quotedNames helper.params ++ ")\n" ++ indent 1 ++
    helper.body.print ++ ")"

/-- Shift every line but the first by one level. -/
def shiftLines (text : String) : String :=
  String.ofList (text.toList.flatMap fun c => if c = '\n' then ['\n', ' ', ' '] else [c])

def printHelpers : List Helper → String
  | [] => ""
  | helper :: rest => "\n" ++ indent 1 ++ shiftLines helper.print ++ printHelpers rest

def Bootstrap.print (bootstrap : Bootstrap) : String :=
  "(bootstrap " ++ Form.quote bootstrap.version ++ printHelpers bootstrap.helpers ++ ")"

end StepCode
