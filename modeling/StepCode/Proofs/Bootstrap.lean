import StepCode.Compiled.OfTarget
import StepCode.Host.Load
import StepCode.Proofs.Bootstrap.Plain

/-!
# The document that goes with compiled code

Whether it is size-reduced or not, the document for the helpers of the compiler is read from its URL
as the same list of helpers.
-/

namespace StepCode

namespace Helper

/-- The remainder of a division that is rounded down. -/
def modulo : Helper :=
  ⟨"modulo", ["a", "b"],
    .builtin .sub [.param "a", .builtin .mul [.param "b",
      .builtin .floor [.builtin .div [.param "a", .param "b"]]]]⟩

/-- All helpers that a document carries, in order. -/
def shipped : List Helper :=
  [ofOrder "compare_equal" .same, ofOrder "less_than" .lt, ofOrder "greater_than" .gt, isStuck, modulo]

end Helper

namespace Bootstrap

/-- The compiler has one helper that is not among the support helpers. -/
theorem accepted_compilerHelpers :
    List.Forall₂ (fun source helper => Helper.parse source = .ok helper)
      (acceptedSources compilerHelpers) [Helper.modulo] := by
  have sources : acceptedSources compilerHelpers = compilerHelpers.entries.map (·.2) := by
    decide +kernel
  have wellFormed : Helper.modulo.body.WellFormed :=
    ⟨rfl, trivial, ⟨rfl, trivial, ⟨rfl, ⟨rfl, trivial, trivial, trivial⟩, trivial⟩, trivial⟩, trivial⟩
  rw [sources]
  exact .cons (Helper.parse_of_spells wellFormed (Spells.of_run (by decide +kernel))) .nil

/-- The document in the URL of a rebuilt program carries exactly the shipped helpers. -/
theorem parse_notice_document (version : String) (compact : Bool) :
    Bootstrap.parse (notice ++ "\n" ++ document compilerHelpers version compact) =
      .ok ⟨version, Helper.shipped⟩ := by
  cases compact with
  | true => exact (parse_compact version accepted_compilerHelpers).2
  | false =>
      have closed : ¬ EndsInComment compilerHelpers := by decide +kernel
      have spelt := spells_notice (document compilerHelpers version false).toList (by simp)
      rw [lexemes?_plain_of_closed version accepted_compilerHelpers closed,
        ← String.toList_append] at spelt
      refine Bootstrap.parse_of_lexemes? (fun helper mem => ?_) spelt
      have writable := writable_carried accepted_compilerHelpers
      rw [List.map_append, spelledOut_supporting] at writable
      exact (writable helper mem).1

end Bootstrap

/-- An unsandboxed host installs the document of a rebuilt program, with the shipped helpers. -/
theorem Host.install_document {host : Host} (unsandboxed : host.unsandboxed = true) (version : String)
    (compact : Bool) :
    host.install (Bootstrap.url (Bootstrap.document compilerHelpers version compact)) =
      .ok { host with
        support := some (.ofBootstrap ⟨version, Helper.shipped⟩)
        extensions := host.extensions.insert supportExtension .support } := by
  unfold Host.install Host.register
  simp [unsandboxed, Bootstrap.documentOfUrl?_url, Bootstrap.parse_notice_document, Except.mapError,
    bind, Except.bind]
  rfl

end StepCode
