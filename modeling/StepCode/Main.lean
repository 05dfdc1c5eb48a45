import StepCode.CommandLine.Run
import StepCode.Rebuild.FreshId

/-!
# Program entry

Runs the command line on the files of the disk.
-/

namespace StepCode.CommandLine

/-- The reason for a failed access, in the words of the operating system. -/
def accessReason : IO.Error → String
  | .userError _ => "stream did not contain valid UTF-8"
  | .noFileOrDirectory _ code details => s!"{details} (os error {code})"
  | .permissionDenied _ code details => s!"{details} (os error {code})"
  | .inappropriateType _ code details => s!"{details} (os error {code})"
  | .invalidArgument _ code details => s!"{details} (os error {code})"
  | .resourceExhausted _ code details => s!"{details} (os error {code})"
  | .alreadyExists _ code details => s!"{details} (os error {code})"
  | .noSuchThing _ code details => s!"{details} (os error {code})"
  | .otherError code details => s!"{details} (os error {code})"
  | error => toString error

def onDisk : FileAccess IO where
  read path := do
    try return .ok (← IO.FS.readFile path)
    catch error => return .error (accessReason error)
  write path contents := do
    try
      IO.FS.writeFile path contents
      return .ok ()
    catch error => return .error (accessReason error)

end StepCode.CommandLine

open StepCode in
def main (arguments : List String) : IO UInt32 := do
  let seed ← IO.rand 0 1000000000000
  let outcome ← CommandLine.run CommandLine.onDisk (freshId seed) arguments
  IO.print outcome.output
  for line in outcome.errors do
    IO.eprintln line
  return UInt32.ofNat outcome.exit
