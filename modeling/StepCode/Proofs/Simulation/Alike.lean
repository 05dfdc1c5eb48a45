import Mathlib.Data.List.Forall2
import StepCode.Host.Basic
import StepCode.Proofs.Tables

/-!
# Values that no block can tell apart

An empty slot has no value for the block interpreter and the empty text for compiled code.  All
conversions and comparisons take the two for the same, so programs whose variables differ in this way
only behave alike.
-/

namespace StepCode

/-- Two values are the same, or there is none on the left and the empty text on the right. -/
inductive Value.Alike : Value → Value → Prop
  | same (value : Value) : Alike value value
  | blank : Alike .empty (.text "")

namespace Value.Alike

variable {left right other third : Value}

theorem toText_eq (alike : left.Alike right) : left.toText = right.toText := by
  cases alike <;> rfl

theorem toRawNumber_eq (alike : left.Alike right) : left.toRawNumber = right.toRawNumber := by
  cases alike with
  | same => rfl
  | blank => decide

theorem toNumber_eq (alike : left.Alike right) : left.toNumber = right.toNumber := by
  simp only [Value.toNumber, alike.toRawNumber_eq]

theorem toBool_eq (alike : left.Alike right) : left.toBool = right.toBool := by
  cases alike with
  | same => rfl
  | blank => decide

theorem isNumeric_eq (alike : left.Alike right) : left.isNumeric = right.isNumeric := by
  cases alike with
  | same => rfl
  | blank => decide

theorem compare_eq (alike : left.Alike right) (others : other.Alike third) :
    left.compare other = right.compare third := by
  simp only [Value.compare, alike.isNumeric_eq, others.isNumeric_eq, alike.toRawNumber_eq,
    others.toRawNumber_eq, alike.toText_eq, others.toText_eq]

end Value.Alike

/-! ## Tables -/

/-- The same names in the same order, with values that are alike. -/
def Table.Alike (left right : Table Value) : Prop :=
  List.Forall₂ (fun entry other => entry.1 = other.1 ∧ entry.2.Alike other.2) left.entries
    right.entries

namespace Table.Alike

variable {left right : Table Value} {name : String} {value other : Value}

theorem refl (table : Table Value) : table.Alike table := by
  obtain ⟨entries⟩ := table
  unfold Table.Alike
  induction entries with
  | nil => exact .nil
  | cons entry rest ih => exact .cons ⟨rfl, .same _⟩ ih

/-- A name is in both tables or in none. -/
theorem get?_cases (alike : left.Alike right) (name : String) :
    (left.get? name = none ∧ right.get? name = none) ∨
      ∃ value other, left.get? name = some value ∧ right.get? name = some other ∧
        value.Alike other := by
  obtain ⟨entries⟩ := left
  obtain ⟨others⟩ := right
  unfold Table.Alike at alike
  simp only [Table.get?] at *
  induction alike with
  | nil => exact .inl ⟨rfl, rfl⟩
  | @cons entry other rest others first _ ih =>
      simp only [Table.find, ← first.1]
      by_cases here : entry.1 = name
      · rw [if_pos here, if_pos here]
        exact .inr ⟨entry.2, other.2, rfl, rfl, first.2⟩
      · rw [if_neg here, if_neg here]
        exact ih

theorem contains_eq (alike : left.Alike right) (name : String) :
    left.contains name = right.contains name := by
  rcases alike.get?_cases name with ⟨absent, absent'⟩ | ⟨_, _, found, found', -⟩
  · simp [Table.contains, absent, absent']
  · simp [Table.contains, found, found']

theorem getD_alike (alike : left.Alike right) (name : String) :
    ((left.get? name).getD .empty).Alike ((right.get? name).getD .empty) := by
  rcases alike.get?_cases name with ⟨absent, absent'⟩ | ⟨_, _, found, found', values⟩
  · rw [absent, absent']
    exact .same _
  · rw [found, found']
    exact values

theorem insert (alike : left.Alike right) (name : String) (values : value.Alike other) :
    (left.insert name value).Alike (right.insert name other) := by
  obtain ⟨entries⟩ := left
  obtain ⟨others⟩ := right
  unfold Table.Alike at *
  simp only [Table.insert] at *
  induction alike with
  | nil => exact .cons ⟨rfl, values⟩ .nil
  | @cons entry second rest _ first later ih =>
      simp only [Table.store, ← first.1]
      by_cases here : entry.1 = name
      · rw [if_pos here, if_pos here]
        exact .cons ⟨rfl, values⟩ later
      · rw [if_neg here, if_neg here]
        exact .cons ⟨rfl, first.2⟩ ih

theorem insertAll (alike : left.Alike right) {pairs others : List (String × Value)}
    (each : List.Forall₂ (fun entry other => entry.1 = other.1 ∧ entry.2.Alike other.2) pairs others) :
    (left.insertAll pairs).Alike (right.insertAll others) := by
  induction each generalizing left right with
  | nil => exact alike
  | @cons entry other _ _ first _ ih =>
      rw [Table.insertAll_cons, Table.insertAll_cons, ← first.1]
      exact ih (alike.insert entry.1 first.2)

end Table.Alike

/-! ## Hosts -/

/-- Targets of two hosts with alike variables that have said the same. -/
structure LiveTarget.Alike (left right : LiveTarget) : Prop where
  name : left.data.name = right.data.name
  isStage : left.data.isStage = right.data.isStage
  vars : left.vars.Alike right.vars
  said : left.said = right.said

/-- All targets of two hosts are alike. -/
def Host.Alike (left right : Host) : Prop :=
  List.Forall₂ LiveTarget.Alike left.targets right.targets

theorem forall₂_modify {α β : Type} {related : α → β → Prop} {items : List α} {others : List β}
    (pairs : List.Forall₂ related items others) (index : Nat) {f : α → α} {g : β → β}
    (step : ∀ item other, related item other → related (f item) (g other)) :
    List.Forall₂ related (items.modify index f) (others.modify index g) := by
  induction pairs generalizing index with
  | nil => simp
  | cons first later ih =>
      cases index with
      | zero => exact .cons (step _ _ first) later
      | succ index => exact .cons first (ih index)

theorem forall₂_getElem? {α β : Type} {related : α → β → Prop} {items : List α} {others : List β}
    (pairs : List.Forall₂ related items others) (index : Nat) :
    (items[index]? = none ∧ others[index]? = none) ∨
      ∃ item other, items[index]? = some item ∧ others[index]? = some other ∧ related item other := by
  induction pairs generalizing index with
  | nil => exact .inl ⟨rfl, rfl⟩
  | cons first _ ih =>
      cases index with
      | zero => exact .inr ⟨_, _, rfl, rfl, first⟩
      | succ index => simpa using ih index

/-- Where one search succeeds the other does, at the same place. -/
theorem forall₂_findIdx? {α β : Type} {related : α → β → Prop} {items : List α} {others : List β}
    (pairs : List.Forall₂ related items others) {p : α → Bool} {q : β → Bool}
    (agree : ∀ item other, related item other → p item = q other) :
    items.findIdx? p = others.findIdx? q := by
  induction pairs with
  | nil => rfl
  | cons first _ ih => rw [List.findIdx?_cons, List.findIdx?_cons, agree _ _ first, ih]

theorem forall₂_find? {α β : Type} {related : α → β → Prop} {items : List α} {others : List β}
    (pairs : List.Forall₂ related items others) {p : α → Bool} {q : β → Bool}
    (agree : ∀ item other, related item other → p item = q other) :
    (items.find? p = none ∧ others.find? q = none) ∨
      ∃ item other, items.find? p = some item ∧ others.find? q = some other ∧ related item other := by
  induction pairs with
  | nil => exact .inl ⟨rfl, rfl⟩
  | @cons item other _ _ first _ ih =>
      rw [List.find?_cons, List.find?_cons, ← agree _ _ first]
      cases p item with
      | true => exact .inr ⟨item, other, rfl, rfl, first⟩
      | false => exact ih

namespace Host.Alike

theorem refl (host : Host) : host.Alike host :=
  List.forall₂_same.mpr fun live _ => ⟨rfl, rfl, .refl live.vars, rfl⟩

variable {left right : Host} {value other : Value}

theorem getVariable (alike : left.Alike right) (target : Nat) (name : String) :
    (left.getVariable target name).Alike (right.getVariable target name) := by
  have ofStage : ((left.stage?.bind fun stage => stage.vars.get? name).getD .empty).Alike
      ((right.stage?.bind fun stage => stage.vars.get? name).getD .empty) := by
    rcases forall₂_find? alike (p := fun live => live.data.isStage) (q := fun live => live.data.isStage)
      (fun _ _ related => related.isStage) with ⟨absent, absent'⟩ | ⟨_, _, found, found', related⟩
    · simp only [Host.stage?, absent, absent', Option.bind_none]
      exact .same _
    · simp only [Host.stage?, found, found', Option.bind_some]
      exact related.vars.getD_alike name
  unfold Host.getVariable
  rcases forall₂_getElem? alike target with ⟨absent, absent'⟩ | ⟨live, live', found, found', related⟩
  · simp only [absent, absent', Option.bind_none]
    exact ofStage
  · simp only [found, found', Option.bind_some]
    rcases related.vars.get?_cases name with ⟨absent, absent'⟩ | ⟨_, _, found, found', values⟩
    · rw [absent, absent']
      exact ofStage
    · rw [found, found']
      exact values

theorem variableOwner_eq (alike : left.Alike right) (target : Nat) (name : String) :
    left.variableOwner target name = right.variableOwner target name := by
  unfold Host.variableOwner
  rcases forall₂_getElem? alike target with ⟨absent, absent'⟩ | ⟨live, live', found, found', related⟩
  · rw [absent, absent']
  · rw [found, found']
    have search := forall₂_findIdx? alike (p := fun other => other.data.isStage && other.vars.contains name)
      (q := fun other => other.data.isStage && other.vars.contains name)
      (fun _ _ related => by rw [related.isStage, related.vars.contains_eq])
    simp only [related.vars.contains_eq, search]

theorem setVariable (alike : left.Alike right) (target : Nat) (name : String)
    (values : value.Alike other) :
    (left.setVariable target name value).Alike (right.setVariable target name other) := by
  unfold Host.setVariable Host.Alike
  simp only [alike.variableOwner_eq]
  refine forall₂_modify alike _ fun live live' related => ?_
  exact ⟨related.name, related.isStage, related.vars.insert name values, related.said⟩

theorem say (alike : left.Alike right) (target : Nat) (message : String) :
    (left.say target message).Alike (right.say target message) := by
  refine forall₂_modify alike _ fun live live' related => ?_
  exact ⟨related.name, related.isStage, related.vars, by simp [related.said]⟩

end Host.Alike

end StepCode
