import StepCode.Proofs.Bootstrap
import StepCode.Proofs.Lowering.Output
import StepCode.Proofs.Routine.Reachable

/-!
# Linking step code

Step code that calls shipped helpers only is linked against the document it comes with.
-/

namespace StepCode

/-- The helpers of a routine mean what they mean in the table it was loaded with. -/
theorem Routine.get?_helpers_of_load {source : String} {table : Table Helper} {script : Script}
    {routine : Routine} (parsed : Script.parse source = .ok script)
    (loaded : Routine.load source table = .ok routine) {name : String}
    (called : name ∈ helperCallsBody script.body) : routine.helpers.get? name = table.get? name := by
  have linking := linking_of_load parsed loaded
  obtain ⟨args, held⟩ := script.mem_helperCalls.mp called
  obtain ⟨helper, inTable, isHelper⟩ := linking.exists_helper (.script held)
  rw [isHelper, inTable]

/-- A routine that calls no helpers is told by its script. -/
theorem Routine.eq_of_load_helperless {source : String} {table : Table Helper} {routine : Routine}
    {script : Script} (loaded : Routine.load source table = .ok routine)
    (isScript : routine.script = script) (none : script.helperNames = []) :
    routine = ⟨script, Routine.numbered script.body, .empty, rfl⟩ := by
  unfold load at loaded
  obtain ⟨parsed, -, linked⟩ := bind_eq_ok.mp loaded
  obtain ⟨helpers, isLinked, isRoutine⟩ := bind_eq_ok.mp linked
  obtain rfl := Except.ok.inj isRoutine
  obtain rfl : parsed = script := isScript
  rw [none, List.reverse_nil, link] at isLinked
  obtain rfl := Except.ok.inj isLinked
  rfl

/-- All shipped names are names of helpers in the document. -/
theorem contains_shipped {name : String} (mem : name ∈ shippedNames) :
    (approvedHelpers Helper.shipped).contains name = true := by
  have all : ∀ name ∈ shippedNames, (approvedHelpers Helper.shipped).contains name = true := by
    decide
  exact all name mem

/-- Shipped helpers call no others. -/
theorem helperNames_of_shipped {name : String} {helper : Helper}
    (found : (approvedHelpers Helper.shipped).get? name = some helper) :
    helper.body.helperNames = [] := by
  have all : ∀ entry ∈ (approvedHelpers Helper.shipped).entries, entry.2.body.helperNames = [] := by
    decide
  exact all (name, helper) (Table.mem_entries_of_get? found)

/-- Sound step code reaches no helpers but shipped ones. -/
theorem contains_of_reaches {script : Script} (sound : BodySound script.body) {name : String}
    (reached : script.Reaches (approvedHelpers Helper.shipped) name) :
    (approvedHelpers Helper.shipped).contains name = true := by
  cases reached with
  | script held => exact contains_shipped (sound.shipped name (script.mem_helperCalls.mpr ⟨_, held⟩))
  | @helper caller _ helper args _ found within =>
      have called : name ∈ helper.body.helperNames := helper.body.mem_helperNames.mpr ⟨args, within⟩
      rw [helperNames_of_shipped found] at called
      cases called

/-- A text that is parsed as a sound script is loaded with the helpers of the document. -/
theorem Routine.exists_load {script : Script} (sound : BodySound script.body) {source : String}
    (parsed : Script.parse source = .ok script) :
    ∃ routine, Routine.load source (approvedHelpers Helper.shipped) = .ok routine := by
  rcases load_cases parsed with ⟨routine, loaded, -⟩ | ⟨name, -, reached, absent⟩
  · exact ⟨routine, loaded⟩
  · have found := contains_of_reaches sound reached
    simp [Table.contains, absent] at found

end StepCode
