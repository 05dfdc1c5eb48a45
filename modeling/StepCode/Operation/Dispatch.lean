import StepCode.Operation.StandardBlock

/-!
# Running a block by its opcode

A block is built in, or belongs to the extension that its opcode begins with; any other block does
nothing.
-/

namespace StepCode

/-- What the blocks of foreign extensions do: by extension, opcode and arguments. -/
abbrev Foreign := (extension opcode : String) → (args : Table Value) → Operation Value

/-- The parts of an opcode before and behind its first underscore. -/
def splitOpcode? (opcode : String) : Option (String × String) :=
  let chars := opcode.toList
  match chars.dropWhile (· != '_') with
  | [] => none
  | _ :: rest => some (String.ofList (chars.takeWhile (· != '_')), String.ofList rest)

/-- The marker block: load the compiled code it carries and put it in the place of the script.  The
code runs from the next tick on. -/
def enterMarker (source : String) : Operation Value := do
  match ← Operation.blockId? with
  | none => throw .markerOutsideScript
  | some marker =>
      let call ← get
      match call.host.support with
      | none => return .empty
      | some support =>
          let support := { support with entered := true }
          Operation.modifyHost fun host => { host with support := some support }
          let target := call.host.targetName call.thread.target
          match support.markerRoutine target marker source with
          | .error error => throw (.load error)
          | .ok (routine, support) =>
              let params := Table.ofList <| routine.params.map fun name =>
                (name, (call.thread.param? name).getD .empty)
              let activation := Activation.enter routine params call.thread.inWarp
              Operation.modifyHost fun host => { host with support := some support }
              Operation.modifyThread fun thread =>
                { thread with compiled := some ⟨none, [activation]⟩ }
              Operation.repeatNextTick
              return .empty

/-- What the blocks of the extension for compiled code do. -/
def supportCall (opcode : String) (args : Table Value) : Operation Value :=
  if opcode = "compile" then enterMarker (((args.get? markerInput).map Value.toText).getD "")
  else return .empty

def dispatch (foreign : Foreign) (opcode : String) (args : Table Value) : Operation Value := do
  match StandardBlock.ofOpcode? opcode with
  | some block => block.run args
  | none =>
      match splitOpcode? opcode with
      | none => return .empty
      | some (extension, opcode) =>
          match (← get).host.extensions.get? extension with
          | none => return .empty
          | some .support => supportCall opcode args
          | some (.foreign _) => foreign extension opcode args

end StepCode
