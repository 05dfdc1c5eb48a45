import StepCode.Routine.Basic

/-!
# Script errors

What ends a script before its last block.
-/

namespace StepCode

/-- What a block needs a script of blocks for; compiled code has none. -/
inductive BlockNeed where
  | branch
  | procedure
  | stopScript
  | param
  | call
deriving DecidableEq, Repr

def BlockNeed.name : BlockNeed → String
  | .branch => "start_branch"
  | .procedure => "start_procedure"
  | .stopScript => "stop_this_script"
  | .param => "param"
  | .call => "procedures_call"

inductive RunError where
  | missingBlock (id : String)
  | unsupported (need : BlockNeed)
  | sandboxed (extension : String)
  | unknownHelper (name : String)
  | helperDepth (name : String)
  | markerOutsideScript
  | load (error : LoadError)
deriving Repr

def RunError.message : RunError → String
  | .missingBlock id => s!"block `{id}` does not exist"
  | .unsupported need => s!"`{need.name}` is not supported by the compatibility layer"
  | .sandboxed extension => s!"extension `{extension}` must be loaded unsandboxed"
  | .unknownHelper name => s!"unknown helper `{name}`"
  | .helperDepth name => s!"helper `{name}` recursed too deeply"
  | .markerOutsideScript => "compile marker reached outside an interpreted script"
  | .load error => s!"cannot load compiled code: {error.message}"

end StepCode
