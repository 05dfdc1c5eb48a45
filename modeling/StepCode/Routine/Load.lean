import StepCode.Routine.Basic

/-!
# Loading routines

A source becomes a routine in two steps: the helpers it reaches are looked up, and its statement
lists are numbered.
-/

namespace StepCode

/-- The approved helpers by name; of several with one name the first counts. -/
def approvedHelpers (helpers : List Helper) : Table Helper :=
  helpers.foldl
    (fun table helper =>
      if table.contains helper.name then table else table.insert helper.name helper)
    .empty

namespace Routine

/-- The names of `table` that are not linked yet. -/
def unlinked (table linked : Table Helper) : List String :=
  table.keys.filter fun name => !linked.contains name

/-- Linking a helper leaves one name less to link. -/
theorem unlinked_insert_lt {table linked : Table Helper} {name : String} {helper : Helper}
    (hLinked : ¬ linked.contains name = true) (hFound : table.get? name = some helper) :
    (unlinked table (linked.insert name helper)).length < (unlinked table linked).length := by
  have hMem : name ∈ table.keys := Table.mem_keys_of_get? hFound
  have hSub : unlinked table (linked.insert name helper) =
      (unlinked table linked).filter fun other => other != name := by
    simp only [unlinked, List.filter_filter]
    apply List.filter_congr
    intro other _
    by_cases hOther : other = name <;>
      simp [Table.contains, Table.get?_insert, hOther]
  have hIn : name ∈ unlinked table linked := by
    simp [unlinked, hMem, hLinked]
  rw [hSub]
  exact List.length_filter_lt_length_iff_exists.mpr ⟨name, hIn, by simp⟩

/-- Look up the helpers on a stack of names and all that they call in turn. -/
def link (table linked : Table Helper) (pending : List String) :
    Except LoadError (Table Helper) :=
  match pending with
  | [] => .ok linked
  | name :: rest =>
      if _linked : linked.contains name then link table linked rest
      else
        match _found : table.get? name with
        | none => .error (.unknownHelper name)
        | some helper =>
            link table (linked.insert name helper) (helper.body.helperNames.reverse ++ rest)
  termination_by ((unlinked table linked).length, pending.length)
  decreasing_by
    · exact Prod.Lex.right _ (by simp)
    · exact Prod.Lex.left _ _ (unlinked_insert_lt _linked _found)

/-- Read a source and link it against the approved helpers. -/
def load (source : String) (table : Table Helper) : Except LoadError Routine := do
  let script ← (Script.parse source).mapError .parse
  let helpers ← link table .empty script.helperNames.reverse
  return ⟨script, numbered script.body, helpers, rfl⟩

end Routine

end StepCode
