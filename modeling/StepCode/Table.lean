/-!
# Tables

A table maps names to values and keeps its names in the order of first insertion.  Storing under a
name that is already there replaces the value and leaves the name in its place.
-/

namespace StepCode

/-- Named values in the order in which their names first appeared. -/
structure Table (α : Type) where
  entries : List (String × α)
deriving DecidableEq, Repr

namespace Table

variable {α β : Type}

/-- The table without names. -/
def empty : Table α := ⟨[]⟩

instance : Inhabited (Table α) := ⟨empty⟩

/-- The value stored under `name`: the first entry decides. -/
def find (name : String) : List (String × α) → Option α
  | [] => none
  | (key, value) :: rest => if key = name then some value else find name rest

/-- Replace the value under `name` where it stands, or add it at the end. -/
def store (name : String) (value : α) : List (String × α) → List (String × α)
  | [] => [(name, value)]
  | (key, old) :: rest =>
      if key = name then (key, value) :: rest else (key, old) :: store name value rest

def get? (table : Table α) (name : String) : Option α :=
  find name table.entries

def insert (table : Table α) (name : String) (value : α) : Table α :=
  ⟨store name value table.entries⟩

def contains (table : Table α) (name : String) : Bool :=
  (table.get? name).isSome

def keys (table : Table α) : List String :=
  table.entries.map (·.1)

def values (table : Table α) : List α :=
  table.entries.map (·.2)

def size (table : Table α) : Nat :=
  table.entries.length

def isEmpty (table : Table α) : Bool :=
  table.entries.isEmpty

/-- Enter the pairs one after the other; a repeated name keeps its first place and its last value. -/
def ofList (pairs : List (String × α)) : Table α :=
  pairs.foldl (fun table pair => table.insert pair.1 pair.2) empty

/-- Keep the entries that satisfy `keep`, in order. -/
def filter (keep : String → α → Bool) (table : Table α) : Table α :=
  ⟨table.entries.filter fun entry => keep entry.1 entry.2⟩

@[simp] theorem get?_empty (name : String) : (empty : Table α).get? name = none := rfl

theorem find_store (name other : String) (value : α) (entries : List (String × α)) :
    find other (store name value entries) =
      if other = name then some value else find other entries := by
  induction entries with
  | nil => simp [find, store, eq_comm]
  | cons entry rest ih =>
      obtain ⟨key, old⟩ := entry
      by_cases hKey : key = name
      · by_cases hOther : other = name
        · simp [find, store, hKey, hOther]
        · simp [find, store, hKey, hOther, Ne.symm hOther]
      · by_cases hOther : other = key
        · subst hOther
          simp [find, store, hKey]
        · simp [find, store, hKey, Ne.symm hOther, ih]

theorem mem_keys_of_get? {table : Table α} {name : String} {value : α}
    (h : table.get? name = some value) : name ∈ table.keys := by
  obtain ⟨entries⟩ := table
  simp only [get?, keys] at h ⊢
  induction entries with
  | nil => simp [find] at h
  | cons entry rest ih =>
      simp only [find] at h
      split at h
      · simp_all
      · simp [ih h]

/-- Reading after a write: the written name has the new value, every other name its old one. -/
theorem get?_insert (table : Table α) (name other : String) (value : α) :
    (table.insert name value).get? other =
      if other = name then some value else table.get? other :=
  find_store name other value table.entries

theorem map_fst_store (name : String) (value : α) (entries : List (String × α)) :
    (store name value entries).map (·.1) =
      if name ∈ entries.map (·.1) then entries.map (·.1) else entries.map (·.1) ++ [name] := by
  induction entries with
  | nil => simp [store]
  | cons entry rest ih =>
      obtain ⟨key, old⟩ := entry
      by_cases hKey : key = name
      · simp [store, hKey]
      · have hNe : ¬ name = key := Ne.symm hKey
        simp only [store, hKey, if_false, List.map_cons, ih, List.mem_cons, hNe, false_or]
        split <;> simp

/-- A write adds its name at the end unless the name is there already. -/
theorem keys_insert (table : Table α) (name : String) (value : α) :
    (table.insert name value).keys =
      if name ∈ table.keys then table.keys else table.keys ++ [name] :=
  map_fst_store name value table.entries

end Table

end StepCode
