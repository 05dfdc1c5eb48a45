import Mathlib.Data.List.Forall2

/-!
# Computations one after the other

What it means for a sequence of computations that may fail to succeed, and where it stops otherwise.
-/

namespace StepCode

variable {ε α β : Type}

theorem toOption_eq_some {outcome : Except ε α} {value : α} :
    outcome.toOption = some value ↔ outcome = .ok value := by
  cases outcome <;> simp [Except.toOption]

/-- A sequence succeeds when both of its parts do. -/
theorem bind_eq_ok {step : Except ε α} {next : α → Except ε β} {value : β} :
    (step >>= next) = .ok value ↔ ∃ middle, step = .ok middle ∧ next middle = .ok value := by
  cases step with
  | error stop => simp [bind, Except.bind]
  | ok middle => simp [bind, Except.bind]

/-- A sequence fails in its first part, or in the second behind a first one that succeeds. -/
theorem bind_eq_error {step : Except ε α} {next : α → Except ε β} {stop : ε} :
    (step >>= next) = .error stop ↔
      step = .error stop ∨ ∃ middle, step = .ok middle ∧ next middle = .error stop := by
  cases step with
  | error other => simp [bind, Except.bind]
  | ok middle => simp [bind, Except.bind]

/-- A list of computations succeeds when each of them does. -/
theorem mapM_eq_ok {f : α → Except ε β} {items : List α} {values : List β} :
    items.mapM f = .ok values ↔ List.Forall₂ (fun item value => f item = .ok value) items values := by
  induction items generalizing values with
  | nil => simp [pure, Except.pure, eq_comm]
  | cons item rest ih =>
      simp only [List.mapM_cons, bind_eq_ok, pure, Except.pure, Except.ok.injEq, ih,
        List.forall₂_cons_left_iff]
      constructor
      · rintro ⟨value, hItem, others, hRest, rfl⟩
        exact ⟨value, others, hItem, hRest, rfl⟩
      · rintro ⟨value, others, hItem, hRest, rfl⟩
        exact ⟨value, hItem, others, hRest, rfl⟩

theorem exists_of_getElem?_right {related : α → β → Prop} {items : List α} {values : List β}
    (pairs : List.Forall₂ related items values) {index : Nat} {value : β}
    (found : values[index]? = some value) :
    ∃ item, items[index]? = some item ∧ related item value := by
  induction pairs generalizing index with
  | nil => simp at found
  | cons here _ ih =>
      cases index with
      | zero =>
          obtain rfl := by simpa using found
          exact ⟨_, rfl, here⟩
      | succ index => exact ih (by simpa using found)

theorem exists_of_mem_right {related : α → β → Prop} {items : List α} {values : List β}
    (pairs : List.Forall₂ related items values) {value : β} (mem : value ∈ values) :
    ∃ item ∈ items, related item value := by
  obtain ⟨index, found⟩ := List.mem_iff_getElem?.mp mem
  obtain ⟨item, isItem, here⟩ := exists_of_getElem?_right pairs found
  exact ⟨item, List.mem_of_getElem? isItem, here⟩

/-- What related items have in common is the same list on both sides. -/
theorem map_eq_of_forall₂ {γ : Type} {related : α → β → Prop} {items : List α} {values : List β}
    (pairs : List.Forall₂ related items values) {f : α → γ} {g : β → γ}
    (agree : ∀ item value, related item value → f item = g value) : items.map f = values.map g := by
  rw [← List.forall₂_eq_eq_eq]
  exact List.forall₂_map_left_iff.mpr (List.forall₂_map_right_iff.mpr (pairs.imp agree))

/-- Every value of a list of computations is the value of one of them. -/
theorem exists_of_mem_mapM {f : α → Except ε β} {items : List α} {values : List β}
    (ok : items.mapM f = .ok values) {value : β} (mem : value ∈ values) :
    ∃ item ∈ items, f item = .ok value := by
  exact exists_of_mem_right (mapM_eq_ok.mp ok) mem

/-- A list of computations stops at the first one that fails. -/
theorem mapM_eq_error {f : α → Except ε β} {items : List α} {stop : ε} :
    items.mapM f = .error stop ↔
      ∃ before item after, items = before ++ item :: after ∧
        (∀ earlier ∈ before, ∃ value, f earlier = .ok value) ∧ f item = .error stop := by
  induction items with
  | nil => simp [pure, Except.pure]
  | cons item rest ih =>
      simp only [List.mapM_cons, bind_eq_error, ih, pure, Except.pure, reduceCtorEq, and_false,
        exists_false, or_false]
      constructor
      · rintro (hItem | ⟨value, hItem, before, other, after, rfl, hBefore, hOther⟩)
        · exact ⟨[], item, rest, rfl, by simp, hItem⟩
        · refine ⟨item :: before, other, after, rfl, ?_, hOther⟩
          intro earlier hEarlier
          rcases List.mem_cons.mp hEarlier with rfl | hEarlier
          · exact ⟨value, hItem⟩
          · exact hBefore earlier hEarlier
      · rintro ⟨before, other, after, hSplit, hBefore, hOther⟩
        cases before with
        | nil =>
            obtain ⟨rfl, -⟩ := List.cons.inj hSplit
            exact .inl hOther
        | cons head before =>
            obtain ⟨rfl, rfl⟩ := List.cons.inj hSplit
            obtain ⟨value, hItem⟩ := hBefore item (by simp)
            exact .inr ⟨value, hItem, before, other, after, rfl,
              fun earlier hEarlier => hBefore earlier (by simp [hEarlier]), hOther⟩

/-- A list of computations succeeds exactly when each of them has some value. -/
theorem exists_mapM_eq_ok {f : α → Except ε β} {items : List α} :
    (∃ values, items.mapM f = .ok values) ↔ ∀ item ∈ items, ∃ value, f item = .ok value := by
  induction items with
  | nil => simp [pure, Except.pure]
  | cons item rest ih =>
      simp only [List.mapM_cons, bind_eq_ok, List.forall_mem_cons, ← ih, pure, Except.pure,
        Except.ok.injEq]
      constructor
      · rintro ⟨values, value, here, others, there, rfl⟩
        exact ⟨⟨value, here⟩, others, there⟩
      · rintro ⟨⟨value, here⟩, others, there⟩
        exact ⟨value :: others, value, here, others, there, rfl⟩

/-! ## Optional values -/

/-- Reading a list of optional values gives nothing exactly when one of them is missing. -/
theorem mapM_eq_none {f : α → Option β} {items : List α} :
    items.mapM f = none ↔ ∃ item ∈ items, f item = none := by
  induction items with
  | nil => simp
  | cons item rest ih =>
      simp only [List.mapM_cons, List.mem_cons, exists_eq_or_imp, ← ih]
      cases f item with
      | none => simp
      | some value => cases rest.mapM f <;> simp

/-- Two optional values in a row are missing when one of them is. -/
theorem pair_eq_none {γ : Type} {first : Option α} {second : Option β} {join : α → β → γ} :
    (do let a ← first; let b ← second; return join a b) = none ↔ first = none ∨ second = none := by
  cases first with
  | none => simp
  | some a => cases second <;> simp

/-- A list without missing values gives the values in order. -/
theorem mapM_eq_some {f : α → Option β} {items : List α} {values : List β} :
    items.mapM f = some values ↔
      List.Forall₂ (fun item value => f item = some value) items values := by
  induction items generalizing values with
  | nil => simp [eq_comm]
  | cons item rest ih =>
      simp only [List.mapM_cons, Option.bind_eq_bind, Option.bind_eq_some_iff, Option.pure_def,
        Option.some.injEq, ih, List.forall₂_cons_left_iff]
      constructor
      · rintro ⟨value, here, others, there, rfl⟩
        exact ⟨value, others, here, there, rfl⟩
      · rintro ⟨value, others, here, there, rfl⟩
        exact ⟨value, here, others, there, rfl⟩

/-- What holds of a state and is kept by every step holds after all of them. -/
theorem foldlM_invariant {holds : β → Prop} {step : β → α → Option β}
    (kept : ∀ state item after, holds state → step state item = some after → holds after)
    {items : List α} {state after : β} (before : holds state)
    (done : items.foldlM step state = some after) : holds after := by
  induction items generalizing state with
  | nil =>
      obtain rfl := Option.some.inj done
      exact before
  | cons item rest ih =>
      rw [List.foldlM_cons, Option.bind_eq_bind, Option.bind_eq_some_iff] at done
      obtain ⟨middle, stepped, done⟩ := done
      exact ih (kept state item middle before stepped) done

end StepCode
