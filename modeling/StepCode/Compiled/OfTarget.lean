import StepCode.Compiled.Basic
import StepCode.Compiled.Lowering

/-!
# Compiling a target

Every hat and every procedure definition of a target is lowered on its own, so one that is refused
does not affect the others.
-/

namespace StepCode

open Lowering (Lowered Place)

/-- Helpers that step code may call beyond those that always exist. -/
def compilerHelpers : Table String :=
  .ofList [("modulo",
    "(helper modulo (\"a\" \"b\") " ++
      "(- (param \"a\") (* (param \"b\") (floor (/ (param \"a\") (param \"b\"))))))")]

/-- The outcome of a unit; `none` if its lowering never ends. -/
def CompiledUnit.ofLowered? (top : String) (body : Lowered CompiledBody) : Option CompiledUnit :=
  match body with
  | .ok code => some ⟨top, .ok code⟩
  | .error (.refused reason) => some ⟨top, .error reason.message⟩
  | .error .endless => none

namespace Target

variable (target : Target)

/-- A hat has no parameters and runs outside warp. -/
def lowerHat (hat : Block) : Lowered CompiledBody := do
  let body ← Lowering.chain ⟨target, [], false⟩ hat.next
  return .function ⟨[], body⟩

/-- The prototype gives a procedure its parameters and says whether it runs in warp. -/
def lowerDefinition (definition : Definition) : Lowered CompiledBody :=
  match definition.prototype.bind Block.mutation with
  | none => Lowering.refuse .noPrototype
  | some mutation => do
      let body ← Lowering.chain ⟨target, mutation.names, mutation.isWarp⟩ definition.block.next
      return .source (Script.print ⟨mutation.names, body⟩)

/-- The hats that start a script, in table order. -/
def hats : List (String × Block) :=
  target.blockList.filter fun (_, block) => block.topLevel && block.isHat

/-- Compile all hats and definitions.  There is no result if some block is nested in itself. -/
def compile? : Option TargetResults := do
  let hats ← target.hats.mapM fun (id, hat) => do
    return (id, ← CompiledUnit.ofLowered? id (target.lowerHat hat))
  let procedures ← target.definitions.mapM fun definition =>
    CompiledUnit.ofLowered? definition.id (target.lowerDefinition definition)
  return ⟨.ofList hats, procedures⟩

end Target

end StepCode
