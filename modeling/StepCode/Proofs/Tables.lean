import StepCode.Project.Basic

/-!
# Entries of tables

What is found in a table is among its entries, and conversely where no name is used twice.
-/

namespace StepCode

namespace Table

variable {α : Type} {table : Table α} {name : String} {value : α}

theorem mem_entries_of_get? (found : table.get? name = some value) :
    (name, value) ∈ table.entries := by
  obtain ⟨entries⟩ := table
  simp only [get?] at found
  induction entries with
  | nil => simp [find] at found
  | cons entry rest ih =>
      simp only [find] at found
      split at found
      next here =>
        obtain rfl := Option.some.inj found
        simp [← here]
      next => exact List.mem_cons_of_mem _ (ih found)

/-- Enter pairs one after the other. -/
def insertAll (table : Table α) (pairs : List (String × α)) : Table α :=
  pairs.foldl (fun table pair => table.insert pair.1 pair.2) table

@[simp] theorem insertAll_nil (table : Table α) : table.insertAll [] = table := rfl

@[simp] theorem insertAll_cons (table : Table α) (pair : String × α) (pairs : List (String × α)) :
    table.insertAll (pair :: pairs) = (table.insert pair.1 pair.2).insertAll pairs := rfl

theorem insertAll_append (table : Table α) (pairs others : List (String × α)) :
    table.insertAll (pairs ++ others) = (table.insertAll pairs).insertAll others :=
  List.foldl_append

/-- What is found was there before or has been entered. -/
theorem mem_of_get?_insertAll {pairs : List (String × α)}
    (found : (table.insertAll pairs).get? name = some value) :
    (name, value) ∈ pairs ∨ table.get? name = some value := by
  induction pairs generalizing table with
  | nil => exact .inr found
  | cons pair pairs ih =>
      rcases ih found with later | earlier
      · exact .inl (List.mem_cons_of_mem _ later)
      · rw [get?_insert] at earlier
        split at earlier
        next same =>
          obtain rfl := Option.some.inj earlier
          exact .inl (by simp [same])
        next => exact .inr earlier

theorem mem_entries_store {entries : List (String × α)} {key : String} {stored : α}
    (mem : (key, stored) ∈ store name value entries) :
    (key, stored) = (name, value) ∨ (key, stored) ∈ entries := by
  induction entries with
  | nil => simpa [store] using mem
  | cons entry rest ih =>
      simp only [store] at mem
      split at mem
      next same =>
        rcases List.mem_cons.mp mem with here | later
        · exact .inl (here.trans (by rw [same]))
        · exact .inr (List.mem_cons_of_mem _ later)
      next =>
        rcases List.mem_cons.mp mem with here | later
        · exact .inr (by simp [here])
        · exact (ih later).imp id (List.mem_cons_of_mem _)

theorem mem_entries_insertAll {pairs : List (String × α)} {pair : String × α}
    (mem : pair ∈ (table.insertAll pairs).entries) : pair ∈ pairs ∨ pair ∈ table.entries := by
  induction pairs generalizing table with
  | nil => exact .inr mem
  | cons first pairs ih =>
      rcases ih mem with later | earlier
      · exact .inl (List.mem_cons_of_mem _ later)
      · rcases mem_entries_store earlier with here | before
        · exact .inl (List.mem_cons.mpr (.inl here))
        · exact .inr before

/-- The entries of a table are among the pairs that it was made from. -/
theorem mem_of_mem_values_ofList {pairs : List (String × α)} (mem : value ∈ (ofList pairs).values) :
    ∃ name, (name, value) ∈ pairs := by
  obtain ⟨⟨name, _⟩, stored, rfl⟩ := List.mem_map.mp mem
  rcases mem_entries_insertAll stored with entered | before
  · exact ⟨name, entered⟩
  · exact absurd before List.not_mem_nil

/-- A name that is not entered keeps what it had. -/
theorem get?_insertAll_of_notMem {pairs : List (String × α)} (absent : name ∉ pairs.map (·.1)) :
    (table.insertAll pairs).get? name = table.get? name := by
  induction pairs generalizing table with
  | nil => rfl
  | cons pair pairs ih =>
      simp only [List.map_cons, List.mem_cons, not_or] at absent
      rw [insertAll_cons, ih absent.2, get?_insert, if_neg absent.1]

/-- A name under which one value only is entered has that value. -/
theorem get?_insertAll_of_mem {pairs : List (String × α)} (mem : (name, value) ∈ pairs)
    (only : ∀ other, (name, other) ∈ pairs → other = value) :
    (table.insertAll pairs).get? name = some value := by
  induction pairs generalizing table with
  | nil => simp at mem
  | cons pair pairs ih =>
      rw [insertAll_cons]
      have onlyLater : ∀ other, (name, other) ∈ pairs → other = value :=
        fun other later => only other (List.mem_cons_of_mem _ later)
      by_cases later : name ∈ pairs.map (·.1)
      · obtain ⟨⟨_, other⟩, inPairs, rfl⟩ := List.mem_map.mp later
        exact ih (onlyLater other inPairs ▸ inPairs) onlyLater
      · have here : (name, value) = pair := by
          rcases List.mem_cons.mp mem with here | inPairs
          · exact here
          · exact absurd (List.mem_map_of_mem inPairs) later
        rw [get?_insertAll_of_notMem later, get?_insert, ← here, if_pos rfl]

/-! ## Names -/

theorem mem_keys_insert {other : String} :
    other ∈ (table.insert name value).keys ↔ other = name ∨ other ∈ table.keys := by
  rw [keys_insert]
  split
  next stored =>
    constructor
    · exact .inr
    · rintro (rfl | before)
      · exact stored
      · exact before
  next => simp [or_comm]

theorem mem_keys_insertAll {pairs : List (String × α)} :
    name ∈ (table.insertAll pairs).keys ↔ name ∈ pairs.map (·.1) ∨ name ∈ table.keys := by
  induction pairs generalizing table with
  | nil => simp
  | cons pair pairs ih =>
      rw [insertAll_cons, ih, mem_keys_insert, List.map_cons, List.mem_cons, or_left_comm, or_assoc]

theorem nodup_keys_insert (distinct : table.keys.Nodup) :
    (table.insert name value).keys.Nodup := by
  rw [keys_insert]
  split
  next => exact distinct
  next absent => simpa [List.nodup_append] using ⟨distinct, fun other mem same => absent (same ▸ mem)⟩

theorem nodup_keys_insertAll {pairs : List (String × α)} (distinct : table.keys.Nodup) :
    (table.insertAll pairs).keys.Nodup := by
  induction pairs generalizing table with
  | nil => exact distinct
  | cons pair pairs ih => exact ih (nodup_keys_insert distinct)

/-- In a table without repeated names every entry is found. -/
theorem get?_of_mem_entries (distinct : table.keys.Nodup) (mem : (name, value) ∈ table.entries) :
    table.get? name = some value := by
  obtain ⟨entries⟩ := table
  simp only [get?, keys] at *
  induction entries with
  | nil => simp at mem
  | cons entry rest ih =>
      obtain ⟨absent, distinctRest⟩ := List.nodup_cons.mp distinct
      rcases List.mem_cons.mp mem with rfl | later
      · simp [find]
      · have other : entry.1 ≠ name := by
          rintro rfl
          exact absent (List.mem_map.mpr ⟨_, later, rfl⟩)
        rw [find, if_neg other]
        exact ih distinctRest later

theorem exists_get?_of_mem_entries {entry : String × α} (mem : entry ∈ table.entries) :
    ∃ value, table.get? entry.1 = some value := by
  obtain ⟨entries⟩ := table
  simp only [get?] at *
  induction entries with
  | nil => simp at mem
  | cons first rest ih =>
      by_cases here : first.1 = entry.1
      · exact ⟨first.2, by simp [find, here]⟩
      · rw [find, if_neg here]
        exact ih ((List.mem_cons.mp mem).resolve_left fun same => here (same ▸ rfl))

theorem exists_get?_of_mem_keys (mem : name ∈ table.keys) : ∃ value, table.get? name = some value := by
  obtain ⟨entry, stored, rfl⟩ := List.mem_map.mp mem
  exact exists_get?_of_mem_entries stored

theorem store_of_notMem {entries : List (String × α)} (absent : name ∉ entries.map (·.1)) :
    store name value entries = entries ++ [(name, value)] := by
  induction entries with
  | nil => rfl
  | cons entry rest ih =>
      simp only [List.map_cons, List.mem_cons, not_or] at absent
      rw [store, if_neg (Ne.symm absent.1), ih absent.2, List.cons_append]

/-- Entering names that are new adds them at the end. -/
theorem insertAll_of_distinct {pairs : List (String × α)}
    (distinct : (table.keys ++ pairs.map (·.1)).Nodup) :
    table.insertAll pairs = ⟨table.entries ++ pairs⟩ := by
  induction pairs generalizing table with
  | nil => simp
  | cons pair pairs ih =>
      have absent : pair.1 ∉ table.keys := by
        intro mem
        exact (List.nodup_append.mp distinct).2.2 _ mem _ (by simp) rfl
      have isNew : table.insert pair.1 pair.2 = ⟨table.entries ++ [pair]⟩ := by
        rw [insert, store_of_notMem absent]
      rw [insertAll_cons, isNew, ih (by simpa [keys] using distinct), List.append_assoc,
        List.singleton_append]

/-- A table that is made of distinct names has the values in their order. -/
theorem values_ofList {pairs : List (String × α)} (distinct : (pairs.map (·.1)).Nodup) :
    (ofList pairs).values = pairs.map (·.2) := by
  have entered : (empty : Table α).insertAll pairs = ⟨pairs⟩ :=
    insertAll_of_distinct (by simpa [keys, empty] using distinct)
  change ((empty : Table α).insertAll pairs).values = _
  rw [entered]
  rfl

/-- New names that are selected come in the order in which they are entered. -/
theorem filter_keys_insertAll (selects : String → Bool) {pairs : List (String × α)}
    (distinct : ((pairs.map (·.1)).filter selects).Nodup)
    (new : ∀ name ∈ pairs.map (·.1), selects name = true → name ∉ table.keys) :
    (table.insertAll pairs).keys.filter selects =
      table.keys.filter selects ++ (pairs.map (·.1)).filter selects := by
  induction pairs generalizing table with
  | nil => simp
  | cons pair pairs ih =>
      rw [insertAll_cons]
      cases selected : selects pair.1 with
      | false =>
          have same : (table.insert pair.1 pair.2).keys.filter selects = table.keys.filter selects := by
            rw [keys_insert]
            split <;> simp [selected]
          rw [ih, same, List.map_cons, List.filter_cons_of_neg (by simp [selected])]
          · simpa [selected] using distinct
          · intro name mem isSelected inserted
            rcases mem_keys_insert.mp inserted with rfl | before
            · simp [selected] at isSelected
            · exact new name (by simp [mem]) isSelected before
      | true =>
          have absent : pair.1 ∉ table.keys := new pair.1 (by simp) selected
          rw [List.map_cons, List.filter_cons_of_pos selected] at distinct ⊢
          obtain ⟨notLater, distinctLater⟩ := List.nodup_cons.mp distinct
          rw [ih distinctLater, keys_insert, if_neg absent]
          · simp [selected]
          · intro name mem isSelected inserted
            rcases mem_keys_insert.mp inserted with rfl | before
            · exact notLater (List.mem_filter.mpr ⟨mem, selected⟩)
            · exact new name (by simp [mem]) isSelected before

end Table

theorem Target.block?_eq_some {target : Target} {id : String} {block : Block} :
    target.block? id = some block ↔ target.blocks.get? id = some (.block block) := by
  unfold Target.block? blockIn
  rw [Option.bind_eq_some_iff]
  constructor
  · rintro ⟨entry, stored, isBlock⟩
    cases entry with
    | block found =>
        obtain rfl := Option.some.inj isBlock
        exact stored
    | primitive items => simp [BlockEntry.block?] at isBlock
  · intro stored
    exact ⟨_, stored, rfl⟩

/-- A block that is found stands in the list of blocks. -/
theorem Target.mem_blockList_of_block? {target : Target} {id : String} {block : Block}
    (found : target.block? id = some block) : (id, block) ∈ target.blockList := by
  obtain ⟨entry, stored, isBlock⟩ := Option.bind_eq_some_iff.mp found
  exact List.mem_filterMap.mpr ⟨(id, entry), Table.mem_entries_of_get? stored, by simp [isBlock]⟩

theorem Target.block?_of_mem_blockList {target : Target} (distinct : target.blocks.keys.Nodup)
    {id : String} {block : Block} (mem : (id, block) ∈ target.blockList) :
    target.block? id = some block := by
  obtain ⟨⟨_, entry⟩, stored, found⟩ := List.mem_filterMap.mp mem
  obtain ⟨_, isBlock, same⟩ := Option.map_eq_some_iff.mp found
  obtain ⟨rfl, rfl⟩ := Prod.mk.inj same
  exact Option.bind_eq_some_iff.mpr ⟨entry, Table.get?_of_mem_entries distinct stored, isBlock⟩

/-- What is found in a slot is stored under its name. -/
theorem Block.mem_keys_of_input? {block : Block} {name : String} {held : Input}
    (slot : block.input? name = some held) : name ∈ block.inputs.keys := by
  obtain ⟨content, stored, -⟩ := Option.bind_eq_some_iff.mp slot
  exact Table.mem_keys_of_get? stored

theorem Block.mem_inputs_keys {block : Block} {name inner : String}
    (slot : block.inputBlock? name = some inner) : name ∈ block.inputs.keys := by
  unfold Block.inputBlock? at slot
  split at slot
  next held => exact mem_keys_of_input? held
  next => simp at slot

end StepCode
