import StepCode.Project.Basic
import StepCode.Text.Affix

/-!
# Extensions in use

Bodies that are compiled away may be the only blocks of an extension.  An invisible block of the
extension keeps it loaded.
-/

namespace StepCode

/-- The first opcode of an extension, over all targets in order. -/
def extensionOpcode? (targets : List Target) (extension : String) : Option String :=
  targets.findSome? fun target =>
    (target.blockList.find? fun (_, block) =>
      Text.startsWith block.opcode (extension ++ "_")).map fun (_, block) => block.opcode

/-- An invisible block that keeps an extension loaded. -/
def Block.placeholder (opcode : String) : Block :=
  { Block.bare opcode with shadow := true, topLevel := true }

/-- What became of the extensions of a program. -/
structure ExtensionReport where
  kept : List String
  dropped : List String
deriving DecidableEq, Repr

/-- Plant a placeholder into `main` for every extension that some block of `source` uses.  `newId`
chooses the id of a new block from those in use. -/
def plantPlaceholders (newId : List String → String) (source : List Target) :
    (extensions : List String) → (main : Target) → Target × ExtensionReport
  | [], main => (main, ⟨[], []⟩)
  | extension :: rest, main =>
      match extensionOpcode? source extension with
      | some opcode =>
          let blocks := main.blocks.insert (newId main.blocks.keys) (.block (.placeholder opcode))
          let (main, report) := plantPlaceholders newId source rest { main with blocks := blocks }
          (main, { report with kept := extension :: report.kept })
      | none =>
          let (main, report) := plantPlaceholders newId source rest main
          (main, { report with dropped := extension :: report.dropped })

end StepCode
