import StepCode.Script.Printer
import StepCode.Table

/-!
# Compiled units

What a compiler hands over for a target: for every hat and every procedure definition a compiled
body, or the reason why there is none.
-/

namespace StepCode

/-- A compiled body: hats come as scripts, procedures as text. -/
inductive CompiledBody where
  | function (script : Script)
  | source (text : String)
deriving Repr, Inhabited

/-- The step code of a body. -/
def CompiledBody.text : CompiledBody → String
  | .function script => script.print
  | .source text => text

/-- The outcome for one hat or definition.  A failure is a reason in words: any compiler may have
reasons of its own. -/
structure CompiledUnit where
  top : String
  result : Except String CompiledBody
deriving Inhabited

def CompiledUnit.succeeded (compiled : CompiledUnit) : Bool :=
  compiled.result.toBool

/-- The outcomes for one target; hats are kept by their id. -/
structure TargetResults where
  hats : Table CompiledUnit
  procedures : List CompiledUnit
deriving Inhabited

/-- All units: the hats, then the procedures. -/
def TargetResults.units (results : TargetResults) : List CompiledUnit :=
  results.hats.values ++ results.procedures

end StepCode
