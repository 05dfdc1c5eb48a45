import StepCode.Text.Position

/-!
# Positions of faults in settings files

A fault at the end of the text is counted from the last byte on.  Columns count characters where the
fault is at the last byte of one, and bytes elsewhere.
-/

namespace StepCode.Toml

def faultPosition (text : String) (offset : Nat) : Text.Position :=
  if text.isEmpty then ⟨0, offset⟩
  else
    let last := min offset (text.utf8ByteSize - 1)
    let start := Text.lineStart text last
    let column := match Text.charEndingAt? last text.toList with
      | some count => count - Text.charsBefore start text.toList
      | none => last - start
    ⟨(Text.positionAt text start).line, column + (offset - last)⟩

end StepCode.Toml
