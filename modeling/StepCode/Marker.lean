import StepCode.Project.Basic
import StepCode.Text.Affix

/-!
# Markers

A compiled body travels in a marker: a block behind its hat or definition whose only input is the
step code.
-/

namespace StepCode

/-- The extension that knows the marker block. -/
def supportExtension : String := "precomp"

def markerOpcode : String := "precomp_compile"

/-- The slot that holds the step code. -/
def markerInput : String := "CODE"

/-- The marker that carries `source` behind the block `parent`. -/
def Block.marker (parent : String) (source : String) : Block :=
  { Block.bare markerOpcode with
    parent := some parent
    inputs := Table.empty.insert markerInput
      (.array [.int 1, .array [.int textLiteral, .text source]]) }

/-- A signature without the letter that says how the call runs. -/
def proccodeOf (signature : String) : String :=
  match signature.toList with
  | 'W' :: rest => String.ofList rest
  | 'Z' :: rest => String.ofList rest
  | _ => signature

namespace Target

/-- The step code in a marker: an inline text, or a text block in the slot. -/
def markerSource? (target : Target) (marker : Block) : Option String :=
  match marker.inputText? markerInput with
  | some text => some text
  | none => do
      let shadow ← target.block? (← marker.inputBlock? markerInput)
      if shadow.opcode = "text" then shadow.fieldText? "TEXT" else none

/-- The marker behind the definition of a procedure, with its id and its step code. -/
def procedureMarker? (target : Target) (proccode : String) : Option (String × String) := do
  let (_, prototype) ← target.prototype? proccode
  let definition ← target.block? (← prototype.parent)
  let id ← definition.next
  let marker ← target.block? id
  if marker.opcode = markerOpcode then
    return (id, ← target.markerSource? marker)
  else none

end Target

end StepCode
