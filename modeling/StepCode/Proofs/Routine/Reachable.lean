import StepCode.Proofs.Routine.Flattening
import StepCode.Proofs.Script.Occurrences
import StepCode.Proofs.Tables

/-!
# What linking reaches

A script reaches the helpers that it calls, those that their bodies call, and so on; helpers may call
each other in turn.  Linking comes to exactly these, and fails if the table lacks one of them.
-/

namespace StepCode

/-- A helper is reached if the script calls it, or the body of a helper that is reached. -/
inductive Script.Reaches (script : Script) (table : Table Helper) : String → Prop
  | script {name : String} {args : List Expr} (held : script.Holds (.helper name args)) :
      Reaches script table name
  | helper {caller name : String} {helper : Helper} {args : List Expr}
      (reached : Reaches script table caller) (found : table.get? caller = some helper)
      (within : (Expr.helper name args).Within helper.body) : Reaches script table name

theorem mem_firstOccurrences {name : String} {names : List String} :
    name ∈ firstOccurrences names ↔ name ∈ names := by
  induction names with
  | nil => simp [firstOccurrences]
  | cons first rest ih =>
      by_cases same : name = first
      · simp [firstOccurrences, same]
      · simp [firstOccurrences, List.mem_filter, ih, same]

theorem Expr.mem_helperNames {name : String} (expr : Expr) :
    name ∈ expr.helperNames ↔ ∃ args, (Expr.helper name args).Within expr :=
  mem_firstOccurrences.trans expr.mem_helperCalls

theorem Script.mem_helperNames {name : String} (script : Script) :
    name ∈ script.helperNames ↔ ∃ args, script.Holds (.helper name args) :=
  mem_firstOccurrences.trans script.mem_helperCalls

namespace Routine

/-! ## The stack of names -/

/-- Where linking stands: all that is linked or waits is reached, and what a linked helper or the
script calls is linked or waits. -/
structure Linking (table : Table Helper) (script : Script) (linked : Table Helper)
    (pending : List String) : Prop where
  distinct : linked.keys.Nodup
  sound : ∀ name helper, linked.get? name = some helper →
    table.get? name = some helper ∧ script.Reaches table name
  waiting : ∀ name ∈ pending, script.Reaches table name
  called : ∀ name ∈ script.helperNames, linked.contains name = true ∨ name ∈ pending
  covered : ∀ name helper, linked.get? name = some helper →
    ∀ other ∈ helper.body.helperNames, linked.contains other = true ∨ other ∈ pending

namespace Linking

variable {table linked : Table Helper} {script : Script} {pending : List String} {name : String}

theorem start : Linking table script .empty script.helperNames.reverse where
  distinct := List.nodup_nil
  sound := by simp
  waiting := by
    intro name mem
    obtain ⟨args, held⟩ := script.mem_helperNames.mp (List.mem_reverse.mp mem)
    exact .script held
  called := fun name mem => .inr (List.mem_reverse.mpr mem)
  covered := by simp

/-- A name that is linked already need not wait. -/
theorem drop (linking : Linking table script linked (name :: pending))
    (isLinked : linked.contains name = true) : Linking table script linked pending := by
  have still : ∀ other, linked.contains other = true ∨ other ∈ name :: pending →
      linked.contains other = true ∨ other ∈ pending := by
    rintro other (before | waits)
    · exact .inl before
    · rcases List.mem_cons.mp waits with rfl | later
      · exact .inl isLinked
      · exact .inr later
  exact ⟨linking.distinct, linking.sound, fun other mem => linking.waiting other (by simp [mem]),
    fun other mem => still other (linking.called other mem),
    fun caller helper found other mem => still other (linking.covered caller helper found other mem)⟩

/-- A helper that is linked makes those wait that its body calls. -/
theorem link (linking : Linking table script linked (name :: pending)) {helper : Helper}
    (found : table.get? name = some helper) :
    Linking table script (linked.insert name helper)
      (helper.body.helperNames.reverse ++ pending) := by
  have reached : script.Reaches table name := linking.waiting name (by simp)
  have still : ∀ other, linked.contains other = true ∨ other ∈ name :: pending →
      (linked.insert name helper).contains other = true ∨
        other ∈ helper.body.helperNames.reverse ++ pending := by
    intro other wanted
    by_cases same : other = name
    · exact .inl (by simp [Table.contains, Table.get?_insert, same])
    · rcases wanted with before | waits
      · exact .inl (by simpa [Table.contains, Table.get?_insert, same] using before)
      · exact .inr (List.mem_append_right _ ((List.mem_cons.mp waits).resolve_left same))
  refine ⟨Table.nodup_keys_insert linking.distinct, ?sound, ?waiting,
    fun other mem => still other (linking.called other mem), ?covered⟩
  case sound =>
    intro other stored isStored
    rw [Table.get?_insert] at isStored
    split at isStored
    next same =>
      obtain rfl := Option.some.inj isStored
      exact same ▸ ⟨found, reached⟩
    next => exact linking.sound other stored isStored
  case waiting =>
    intro other mem
    rcases List.mem_append.mp mem with called | later
    · obtain ⟨args, within⟩ := helper.body.mem_helperNames.mp (List.mem_reverse.mp called)
      exact .helper reached found within
    · exact linking.waiting other (by simp [later])
  case covered =>
    intro caller stored isStored other mem
    rw [Table.get?_insert] at isStored
    split at isStored
    next =>
      obtain rfl := Option.some.inj isStored
      exact .inr (List.mem_append_left _ (List.mem_reverse.mpr mem))
    next => exact still other (linking.covered caller stored isStored other mem)

/-- When no name waits any more, all that is reached is linked. -/
theorem contains_of_reaches (linking : Linking table script linked [])
    (reached : script.Reaches table name) : linked.contains name = true := by
  induction reached with
  | script held => simpa using linking.called _ (script.mem_helperNames.mpr ⟨_, held⟩)
  | @helper caller name helper args _ found within ih =>
      obtain ⟨stored, isStored⟩ := Option.isSome_iff_exists.mp ih
      obtain rfl : stored = helper :=
        Option.some.inj ((linking.sound caller stored isStored).1.symm.trans found)
      simpa using linking.covered caller stored isStored name
        (stored.body.mem_helperNames.mpr ⟨args, within⟩)

/-- When no name waits any more, each helper that is reached is linked as the table has it. -/
theorem exists_helper (linking : Linking table script linked [])
    (reached : script.Reaches table name) :
    ∃ helper, table.get? name = some helper ∧ linked.get? name = some helper := by
  obtain ⟨helper, found⟩ := Option.isSome_iff_exists.mp (linking.contains_of_reaches reached)
  exact ⟨helper, (linking.sound name helper found).1, found⟩

/-- When no name waits any more, exactly what is reached is linked. -/
theorem mem_keys_iff (linking : Linking table script linked []) :
    name ∈ linked.keys ↔ script.Reaches table name := by
  constructor
  · intro mem
    obtain ⟨helper, found⟩ := Table.exists_get?_of_mem_keys mem
    exact (linking.sound name helper found).2
  · intro reached
    obtain ⟨helper, -, found⟩ := linking.exists_helper reached
    exact Table.mem_keys_of_get? found

end Linking

/-- Linking goes on until no name waits, or stops at a name that is reached but not in the table. -/
theorem linking_of_link {table linked : Table Helper} {script : Script} {pending : List String}
    (linking : Linking table script linked pending) :
    (∃ result, link table linked pending = .ok result ∧ Linking table script result []) ∨
      ∃ name, link table linked pending = .error (.unknownHelper name) ∧
        script.Reaches table name ∧ table.get? name = none := by
  fun_induction Routine.link table linked pending with
  | case1 linked => exact .inl ⟨linked, rfl, linking⟩
  | case2 linked name rest isLinked ih => exact ih (linking.drop isLinked)
  | case3 linked name rest isLinked missing =>
      exact .inr ⟨name, rfl, linking.waiting name (by simp), missing⟩
  | case4 linked name rest isLinked helper found ih => exact ih (linking.link found)

/-- Loading a text that can be read links all that its script reaches, or misses one of them. -/
theorem load_cases {source : String} {table : Table Helper} {script : Script}
    (parsed : Script.parse source = .ok script) :
    (∃ routine, load source table = .ok routine ∧ routine.script = script ∧
        Linking table script routine.helpers []) ∨
      ∃ name, load source table = .error (.unknownHelper name) ∧ script.Reaches table name ∧
        table.get? name = none := by
  have isLoad := load_of_parse parsed table
  rcases linking_of_link (Linking.start : Linking table script .empty _) with
    ⟨helpers, linked, linking⟩ | ⟨name, failed, missing⟩
  · rw [linked] at isLoad
    exact .inl ⟨_, isLoad, rfl, linking⟩
  · rw [failed] at isLoad
    exact .inr ⟨name, isLoad, missing⟩

theorem linking_of_load {source : String} {table : Table Helper} {script : Script} {routine : Routine}
    (parsed : Script.parse source = .ok script) (loaded : load source table = .ok routine) :
    Linking table script routine.helpers [] := by
  rcases load_cases parsed with ⟨other, isOther, -, linking⟩ | ⟨missing, failed, -⟩
  · obtain rfl : other = routine := Except.ok.inj (isOther.symm.trans loaded)
    exact linking
  · rw [failed] at loaded
    cases loaded

end Routine

end StepCode
