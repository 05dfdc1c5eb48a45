import StepCode.Project.ToJson
import StepCode.Rebuild.Placeholder

/-!
# Reports

What a rebuild did to a program.
-/

namespace StepCode

/-- A hat or definition that kept its blocks, and why. -/
structure UnitFailure where
  block : String
  reason : String
deriving DecidableEq, Repr

/-- What became of the units of a target: the hats and definitions that are now followed by a
marker, and those that kept their blocks. -/
structure TargetReport where
  name : String
  hats : List String
  procedures : List String
  failures : List UnitFailure
deriving DecidableEq, Repr

structure RebuildReport where
  targets : List TargetReport
  extensions : ExtensionReport
deriving DecidableEq, Repr

/-- The report of a rebuild that did not take place. -/
def RebuildReport.empty : RebuildReport := ⟨[], ⟨[], []⟩⟩

def RebuildReport.failureCount (report : RebuildReport) : Nat :=
  report.targets.foldl (fun count target => count + target.failures.length) 0

def UnitFailure.toJson (failure : UnitFailure) : Json :=
  .object [("block_id", .text failure.block), ("reason", .text failure.reason)]

def TargetReport.toJson (report : TargetReport) : Json :=
  .object [("name", .text report.name), ("hats", Json.ofTexts report.hats),
    ("procedures", Json.ofTexts report.procedures),
    ("failures", .array (report.failures.map UnitFailure.toJson))]

def RebuildReport.toJson (report : RebuildReport) : Json :=
  .object [("targets", .array (report.targets.map TargetReport.toJson)),
    ("preserved_extensions", Json.ofTexts report.extensions.kept),
    ("dropped_extensions", Json.ofTexts report.extensions.dropped)]

end StepCode
