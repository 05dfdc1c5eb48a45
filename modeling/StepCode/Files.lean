import StepCode.Project.OfJson
import StepCode.Rebuild.Basic

/-!
# Programs in files

Rebuilding a program from one file into another.  How files are read and written is left open, so
that the same functions serve on a disk and on files that are only imagined.
-/

namespace StepCode

/-- Reading and writing of whole files by name.  A failure gives the reason in words. -/
structure FileAccess (m : Type → Type) where
  read : (path : String) → m (Except String String)
  write : (path contents : String) → m (Except String Unit)

/-- Why settings could not be loaded. -/
inductive SettingsError where
  | unreadable (path reason : String)
  /-- The text is no settings file; the fault is at this byte. -/
  | invalid (text : String) (offset : Nat)
deriving DecidableEq, Repr

/-- Why a program could not be rebuilt from a file. -/
inductive FileError where
  | unreadable (path reason : String)
  | invalid (error : Project.ReadError)
  /-- Compiling would never end. -/
  | endless
  | unwritable (path reason : String)
deriving DecidableEq, Repr

section

variable {m : Type → Type} [Monad m]

def loadSettings (files : FileAccess m) (path : String) : m (Except SettingsError Settings) := do
  match ← files.read path with
  | .error reason => return .error (.unreadable path reason)
  | .ok text => return (Settings.read text).mapError (.invalid text)

/-- Read a descriptor, rebuild the program and write the result. -/
def precompileFile (files : FileAccess m) (newId : List String → String) (settings : Settings)
    (source dest : String) : m (Except FileError RebuildReport) := do
  match ← files.read source with
  | .error reason => return .error (.unreadable source reason)
  | .ok text =>
      match Project.read text with
      | .error error => return .error (.invalid error)
      | .ok project =>
          match project.precompile? newId settings with
          | none => return .error .endless
          | some (project, report) =>
              match ← files.write dest project.write with
              | .error reason => return .error (.unwritable dest reason)
              | .ok () => return .ok report

end

end StepCode
