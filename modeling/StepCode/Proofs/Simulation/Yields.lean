import StepCode.Proofs.Tables
import StepCode.Routine.Run
import StepCode.Thread.Interpret

/-!
# Computations that change nothing

Reporters have a value and leave the host and the thread as they were.  The slots of a block are read
one after the other, and the block finds in its arguments what it reads by name.
-/

namespace StepCode

section

variable {ε σ α β : Type}

/-- The computation has a value and leaves the state as it was. -/
def Yields (run : ExceptT ε (StateM σ) α) (state : σ) (value : α) : Prop :=
  run.run.run state = (.ok value, state)

namespace Yields

variable {state : σ} {value : α} {result : β}

theorem pure (state : σ) (value : α) : Yields (ε := ε) (Pure.pure value) state value := rfl

theorem unique {run : ExceptT ε (StateM σ) α} {other : α} (first : Yields run state value)
    (second : Yields run state other) : value = other :=
  Except.ok.inj (congrArg Prod.fst (first.symm.trans second))

theorem bind {run : ExceptT ε (StateM σ) α} {next : α → ExceptT ε (StateM σ) β}
    (first : Yields run state value) (second : Yields (next value) state result) :
    Yields (run >>= next) state result := by
  unfold Yields at *
  rw [ExceptT.run_bind, StateT.run_bind, first]
  exact second

theorem mapM {items : List β} {read : β → ExceptT ε (StateM σ) α} {values : β → α}
    (each : ∀ item ∈ items, Yields (read item) state (values item)) :
    Yields (items.mapM read) state (items.map values) := by
  induction items with
  | nil => exact .pure state []
  | cons item rest ih =>
      rw [List.mapM_cons]
      have first := each item (by simp)
      have later := ih fun other mem => each other (by simp [mem])
      exact first.bind (later.bind (.pure state _))

/-- What follows a computation that changes nothing starts with its value. -/
theorem run_bind {run : ExceptT ε (StateM σ) α} {next : α → ExceptT ε (StateM σ) β}
    (first : Yields run state value) :
    (run >>= next).run.run state = (next value).run.run state := by
  unfold Yields at first
  rw [ExceptT.run_bind, StateT.run_bind, first]
  rfl

end Yields

/-- What follows a change starts behind it. -/
theorem run_modify_bind {change : σ → σ} {next : PUnit → ExceptT ε (StateM σ) β} {state : σ} :
    (modify change >>= next).run.run state = (next ⟨⟩).run.run (change state) := rfl

end

/-- The slots are read without a change, or reporters are nested too deep in them. -/
def Reads {α : Type} (reading : Reading α) (turn : Turn) (value : α) : Prop :=
  reading.run.run turn = (.error .tooDeep, turn) ∨ Yields reading turn value

namespace Reads

variable {α β : Type} {turn : Turn} {value : α} {result : β}

theorem pure (turn : Turn) (value : α) : Reads (Pure.pure value) turn value := .inr rfl

theorem bind {reading : Reading α} {next : α → Reading β} (first : Reads reading turn value)
    (second : Reads (next value) turn result) : Reads (reading >>= next) turn result := by
  rcases first with deep | yields
  · left
    rw [ExceptT.run_bind, StateT.run_bind, deep]
    rfl
  · rcases second with deep | later
    · left
      rw [yields.run_bind]
      exact deep
    · exact .inr (yields.bind later)

theorem mapM {items : List β} {read : β → Reading α} {values : β → α}
    (each : ∀ item ∈ items, Reads (read item) turn (values item)) :
    Reads (items.mapM read) turn (items.map values) := by
  induction items with
  | nil => exact .pure turn []
  | cons item rest ih =>
      rw [List.mapM_cons]
      have first := each item (by simp)
      have later := ih fun other mem => each other (by simp [mem])
      exact first.bind (later.bind (.pure turn _))

end Reads

/-- What is read, by how deep reporters may be nested: at every depth nothing else, and from `bound`
on without fail. -/
def ReadsFrom {α : Type} (bound : Nat) (reading : (depth : Nat) → Reading α) (turn : Turn) (value : α) :
    Prop :=
  ∀ depth, Reads (reading depth) turn value ∧ (bound ≤ depth → Yields (reading depth) turn value)

theorem ReadsFrom.of_yields {α : Type} {bound : Nat} {reading : (depth : Nat) → Reading α} {turn : Turn}
    {value : α} (each : ∀ depth, Yields (reading depth) turn value) :
    ReadsFrom bound reading turn value :=
  fun depth => ⟨.inr (each depth), fun _ => each depth⟩

/-! ## Arguments -/

/-- The slots of a block that are read before it runs. -/
def Block.readSlots (block : Block) : List String :=
  block.inputs.keys.filter fun name => !holdsStatements name

/-- The arguments of a block, given the values of its slots. -/
def Block.args (block : Block) (values : String → Value) : Table Value :=
  .ofList ((block.readSlots.map fun name => (name, values name)) ++
    block.fields.keys.map fun name => (name, fieldValue block name))

theorem readArgs_reads {slot : String → Reading Value} {block : Block} {turn : Turn}
    {values : String → Value} (each : ∀ name ∈ block.readSlots, Reads (slot name) turn (values name)) :
    Reads (readArgs slot block) turn (block.args values) := by
  have slots : Reads (block.readSlots.mapM fun name => do return (name, ← slot name)) turn
      (block.readSlots.map fun name => (name, values name)) :=
    Reads.mapM fun name mem => (each name mem).bind (.pure turn _)
  exact slots.bind (.pure turn _)

theorem readArgs_yields {slot : String → Reading Value} {block : Block} {turn : Turn}
    {values : String → Value} (each : ∀ name ∈ block.readSlots, Yields (slot name) turn (values name)) :
    Yields (readArgs slot block) turn (block.args values) := by
  have slots : Yields (block.readSlots.mapM fun name => do return (name, ← slot name)) turn
      (block.readSlots.map fun name => (name, values name)) :=
    Yields.mapM fun name mem => (each name mem).bind (.pure turn _)
  exact slots.bind (.pure turn _)

section

variable {block : Block} {values : String → Value} {name : String}

/-- A slot is found in the arguments unless a field has the same name. -/
theorem Block.get?_args_slot (mem : name ∈ block.readSlots) (noField : name ∉ block.fields.keys) :
    (block.args values).get? name = some (values name) := by
  refine Table.get?_insertAll_of_mem (List.mem_append_left _ (List.mem_map_of_mem mem)) ?_
  intro other found
  rcases List.mem_append.mp found with slot | field
  · obtain ⟨_, -, same⟩ := List.mem_map.mp slot
    obtain ⟨rfl, rfl⟩ := Prod.mk.inj same
    rfl
  · obtain ⟨_, isField, same⟩ := List.mem_map.mp field
    obtain ⟨rfl, -⟩ := Prod.mk.inj same
    exact absurd isField noField

theorem Block.get?_args_field (mem : name ∈ block.fields.keys) (noSlot : name ∉ block.inputs.keys) :
    (block.args values).get? name = some (fieldValue block name) := by
  refine Table.get?_insertAll_of_mem (List.mem_append_right _ (List.mem_map_of_mem mem)) ?_
  intro other found
  rcases List.mem_append.mp found with slot | field
  · obtain ⟨_, isSlot, same⟩ := List.mem_map.mp slot
    obtain ⟨rfl, -⟩ := Prod.mk.inj same
    exact absurd (List.mem_filter.mp isSlot).1 noSlot
  · obtain ⟨_, -, same⟩ := List.mem_map.mp field
    obtain ⟨rfl, rfl⟩ := Prod.mk.inj same
    rfl

theorem Block.get?_args_absent (noSlot : name ∉ block.inputs.keys) (noField : name ∉ block.fields.keys) :
    (block.args values).get? name = none := by
  refine (Table.get?_insertAll_of_notMem ?_).trans (Table.get?_empty name)
  simp only [List.map_append, List.map_map, List.mem_append, List.mem_map, not_or]
  refine ⟨?_, ?_⟩
  · rintro ⟨_, isSlot, rfl⟩
    exact noSlot (List.mem_filter.mp isSlot).1
  · rintro ⟨_, isField, rfl⟩
    exact noField isField

end

end StepCode
