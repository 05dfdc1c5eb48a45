import StepCode.Proofs.Tables
import StepCode.Project.OfJson
import StepCode.Project.ToJson

/-!
# Reading back what has been written

Descriptors are written as trees and read from trees.  A table without repeated names whose values
read back reads back with its names in their order, and so do lists and optional values.
-/

namespace StepCode

/-! ## Tables -/

namespace Table

variable {α : Type} {table : Table α} {name : String} {value : α}

/-- No name comes twice, and all values are good. -/
structure Orderly (good : α → Prop) (table : Table α) : Prop where
  distinct : table.keys.Nodup
  values : ∀ entry ∈ table.entries, good entry.2

variable {good : α → Prop}

theorem Orderly.empty : (empty : Table α).Orderly good where
  distinct := List.nodup_nil
  values _ mem := absurd mem List.not_mem_nil

theorem Orderly.insert (orderly : table.Orderly good) (isGood : good value) :
    (table.insert name value).Orderly good where
  distinct := nodup_keys_insert orderly.distinct
  values := by
    rintro ⟨key, stored⟩ mem
    rcases mem_entries_store mem with here | before
    · obtain ⟨rfl, rfl⟩ := Prod.mk.inj here
      exact isGood
    · exact orderly.values _ before

theorem Orderly.insertAll {pairs : List (String × α)} (orderly : table.Orderly good)
    (allGood : ∀ pair ∈ pairs, good pair.2) : (table.insertAll pairs).Orderly good := by
  induction pairs generalizing table with
  | nil => exact orderly
  | cons pair pairs ih =>
      obtain ⟨here, later⟩ := List.forall_mem_cons.mp allGood
      exact ih (orderly.insert here) later

theorem Orderly.filter (orderly : table.Orderly good) (keep : String → α → Bool) :
    (table.filter keep).Orderly good where
  distinct := (List.Sublist.map Prod.fst List.filter_sublist).nodup orderly.distinct
  values entry mem := orderly.values entry (List.mem_filter.mp mem).1

theorem Orderly.mono {better : α → Prop} (orderly : table.Orderly good)
    (implies : ∀ value, good value → better value) : table.Orderly better where
  distinct := orderly.distinct
  values entry mem := implies _ (orderly.values entry mem)

/-- The entries of a table make up the table. -/
theorem insertAll_entries (distinct : table.keys.Nodup) : empty.insertAll table.entries = table := by
  rw [insertAll_of_distinct (by simpa [keys, empty] using distinct)]
  simp [empty]

end Table

/-! ## Settled trees -/

namespace Json

/-- No object in the tree has two members of one name. -/
def Settled (json : Json) : Prop := json.settle = json

theorem settleItems_eq_map (items : List Json) : settleItems items = items.map settle := by
  induction items with
  | nil => rfl
  | cons item rest ih => rw [settleItems, ih, List.map_cons]

theorem settleMembers_eq_map (members : List (String × Json)) :
    settleMembers members = members.map fun member => (member.1, member.2.settle) := by
  induction members with
  | nil => rfl
  | cons member rest ih => rw [settleMembers, ih, List.map_cons]

/-- Settled members of different names are left as they are. -/
theorem settled_of_orderly {table : Table Json} (orderly : table.Orderly Settled) :
    Settled (.object table.entries) := by
  have same : settleMembers table.entries = table.entries := by
    rw [settleMembers_eq_map]
    refine (List.map_congr_left fun entry mem => ?_).trans (List.map_id _)
    exact Prod.ext rfl (orderly.values entry mem)
  rw [Settled, settle, same]
  exact congrArg (fun table => object (Table.entries table)) (Table.insertAll_entries orderly.distinct)

mutual

/-- What has been settled is settled. -/
theorem settled_settle : (json : Json) → json.settle.Settled
  | .array items => congrArg array (settleItems_settleItems items)
  | .object members => by
      refine settled_of_orderly (.insertAll .empty ?_)
      have twice := settleMembers_settleMembers members
      rw [settleMembers_eq_map (settleMembers members)] at twice
      intro member mem
      have unchanged := List.map_inj_left.mp (twice.trans (List.map_id _).symm) member mem
      exact congrArg Prod.snd unchanged
  | .null => rfl
  | .bool _ => rfl
  | .int _ => rfl
  | .float _ => rfl
  | .text _ => rfl

theorem settleItems_settleItems : (items : List Json) →
    settleItems (settleItems items) = settleItems items
  | [] => rfl
  | item :: rest => by
      rw [settleItems, settleItems, show item.settle.settle = _ from settled_settle item,
        settleItems_settleItems rest]

theorem settleMembers_settleMembers : (members : List (String × Json)) →
    settleMembers (settleMembers members) = settleMembers members
  | [] => rfl
  | (name, value) :: rest => by
      rw [settleMembers, settleMembers, show value.settle.settle = _ from settled_settle value,
        settleMembers_settleMembers rest]

end

/-! ## Numbers in trees -/

mutual

/-- The numbers that are not written as integers. -/
def floats : Json → List Float
  | .float x => [x]
  | .array items => floatsOfItems items
  | .object members => floatsOfMembers members
  | .null => []
  | .bool _ => []
  | .int _ => []
  | .text _ => []

def floatsOfItems : List Json → List Float
  | [] => []
  | item :: rest => floats item ++ floatsOfItems rest

def floatsOfMembers : List (String × Json) → List Float
  | [] => []
  | (_, value) :: rest => floats value ++ floatsOfMembers rest

end

theorem mem_floats_array {items : List Json} {x : Float} :
    x ∈ (array items).floats ↔ ∃ item ∈ items, x ∈ item.floats := by
  rw [floats]
  induction items with
  | nil => simp [floatsOfItems]
  | cons item rest ih => simp [floatsOfItems, ih]

theorem mem_floats_object {members : List (String × Json)} {x : Float} :
    x ∈ (object members).floats ↔ ∃ member ∈ members, x ∈ member.2.floats := by
  rw [floats]
  induction members with
  | nil => simp [floatsOfMembers]
  | cons member rest ih => simp [floatsOfMembers, ih]

/-! ## Reading parts -/

section

variable {α δ : Type} {good : α → Prop} {read : Json → Shaped α} {write : α → Json}
  {step : δ → String → Json → Shaped δ} {draft middle after : δ} {members rest : List (String × Json)}
  {index : Nat}

/-- What every member keeps is kept by all of them. -/
theorem foldMembers_keeps {holds : δ → Prop}
    (keeps : ∀ draft name value after, holds draft → step draft name value = .ok after → holds after)
    (start : holds draft) (isRead : foldMembers step index draft members = .ok after) :
    holds after := by
  induction members generalizing index draft with
  | nil => exact Except.ok.inj isRead ▸ start
  | cons member members ih =>
      rw [foldMembers] at isRead
      split at isRead
      · simp at isRead
      next middle here => exact ih (keeps draft _ _ middle start here) isRead

theorem foldMembers_append (first : foldMembers step index draft members = .ok middle) :
    foldMembers step index draft (members ++ rest) =
      foldMembers step (index + members.length) middle rest := by
  induction members generalizing index draft with
  | nil => rw [List.nil_append, Except.ok.inj first, List.length_nil, Nat.add_zero]
  | cons member members ih =>
      rw [foldMembers] at first
      rw [List.cons_append, foldMembers]
      split at first
      · simp at first
      next =>
        rw [ih first, List.length_cons]
        congr 1
        omega

/-- Members that are all entered into a table. -/
theorem foldMembers_entries (put : Table α → δ) {table : Table α} (distinct : table.keys.Nodup)
    (enters : ∀ before, ∀ entry ∈ table.entries,
      step (put before) entry.1 (write entry.2) = .ok (put (before.insert entry.1 entry.2))) :
    foldMembers step index (put .empty) (table.entries.map fun entry => (entry.1, write entry.2)) =
      .ok (put table) := by
  have all : ∀ (entries : List (String × α)) (index : Nat) (before : Table α),
      (∀ entry ∈ entries, entry ∈ table.entries) →
      foldMembers step index (put before) (entries.map fun entry => (entry.1, write entry.2)) =
        .ok (put (before.insertAll entries)) := by
    intro entries
    induction entries with
    | nil => intro _ _ _; rfl
    | cons entry entries ih =>
        intro index before inTable
        obtain ⟨here, later⟩ := List.forall_mem_cons.mp inTable
        rw [List.map_cons, foldMembers, enters before entry here]
        exact ih _ _ later
  rw [all table.entries index .empty fun _ mem => mem, Table.insertAll_entries distinct]

theorem asTable_ofTable {table : Table α}
    (orderly : table.Orderly fun value => read (write value) = .ok value) :
    asTable read (ofTable write table) = .ok table := by
  refine foldMembers_entries id orderly.distinct fun before entry mem => ?_
  rw [orderly.values entry mem]
  rfl

theorem asObject_keeps {holds : δ → Prop}
    (keeps : ∀ draft name value after, holds draft → step draft name value = .ok after → holds after)
    (start : holds draft) {json : Json} (isRead : asObject draft step json = .ok after) :
    holds after := by
  unfold asObject at isRead
  split at isRead
  · exact foldMembers_keeps keeps start isRead
  · simp at isRead

theorem asTable_orderly (sound : ∀ json value, read json = .ok value → good value) {json : Json}
    {table : Table α} (isRead : asTable read json = .ok table) : table.Orderly good := by
  have keeps (draft : Table α) (name : String) (value : Json) (after : Table α)
      (orderly : draft.Orderly good) (isAfter : (read value).map (draft.insert name) = .ok after) :
      after.Orderly good := by
    cases here : read value with
    | error error => simp [here, Except.map] at isAfter
    | ok value =>
        rw [here] at isAfter
        exact Except.ok.inj isAfter ▸ orderly.insert (sound _ _ here)
  exact asObject_keeps keeps .empty isRead

theorem asOption_cases {json : Json} {value : Option α} (isRead : asOption read json = .ok value) :
    value = none ∨ ∃ inner, value = some inner ∧ json ≠ .null ∧ read json = .ok inner := by
  unfold asOption at isRead
  split at isRead
  · exact .inl (Except.ok.inj isRead).symm
  next notNull =>
    cases here : read json with
    | error error => simp [here, Except.map] at isRead
    | ok inner =>
        rw [here] at isRead
        exact .inr ⟨inner, (Except.ok.inj isRead).symm, notNull, rfl⟩

theorem asOption_of_ne_null {json : Json} (notNull : json ≠ .null) :
    asOption read json = (read json).map some := by
  unfold asOption
  split
  · exact absurd rfl notNull
  · rfl

theorem readItemsWith_map {items : List α} (back : ∀ item ∈ items, read (write item) = .ok item) :
    readItemsWith read index (items.map write) = .ok items := by
  induction items generalizing index with
  | nil => rfl
  | cons item rest ih =>
      obtain ⟨here, later⟩ := List.forall_mem_cons.mp back
      rw [List.map_cons, readItemsWith, here]
      dsimp only
      rw [ih later]
      rfl

theorem readItemsWith_forall (sound : ∀ json value, read json = .ok value → good value)
    {items : List Json} {values : List α} (isRead : readItemsWith read index items = .ok values) :
    ∀ value ∈ values, good value := by
  induction items generalizing index values with
  | nil => simp [← Except.ok.inj isRead]
  | cons item rest ih =>
      rw [readItemsWith] at isRead
      split at isRead
      · simp at isRead
      next value here =>
        cases later : readItemsWith read (index + 1) rest with
        | error error => simp [later, Except.map] at isRead
        | ok values =>
            rw [later] at isRead
            obtain rfl := Except.ok.inj isRead
            exact List.forall_mem_cons.mpr ⟨sound _ _ here, ih later⟩

theorem asList_forall (sound : ∀ json value, read json = .ok value → good value) {json : Json}
    {values : List α} (isRead : asList read json = .ok values) : ∀ value ∈ values, good value := by
  unfold asList at isRead
  split at isRead
  · exact readItemsWith_forall sound isRead
  · simp at isRead

end

end Json

end StepCode
