import Mathlib.Logic.Relation
import StepCode.Proofs.Sequencing
import StepCode.Routine.Support

/-!
# Resolving calls

Routines are loaded once and kept.  What the support has kept for a target agrees with the markers of
the target, so a call is answered in the same way whenever it is made.
-/

namespace StepCode

/-- What is found after a value is added was there before or is the value. -/
theorem Cache.get?_add {α : Type} {cache : Cache α} {key other : String × String} {value found : α} :
    (cache.add key value).get? other = some found ↔
      cache.get? other = some found ∨ (cache.get? other = none ∧ key = other ∧ value = found) := by
  unfold Cache.get? Cache.add
  rw [List.find?_append]
  cases cache.entries.find? fun entry => entry.1 == other with
  | some entry => simp
  | none =>
      by_cases same : key = other
      · simp [same]
      · simp [same]

/-- A marker stands under the id that carries the text itself. -/
def Target.Carries (target : Target) (id text : String) : Prop :=
  ∃ marker, target.block? id = some marker ∧ marker.inputText? markerInput = some text

theorem Target.Carries.eq {target : Target} {id text other : String} (carries : target.Carries id text)
    (again : target.Carries id other) : other = text := by
  obtain ⟨marker, found, isText⟩ := carries
  obtain ⟨_, same, isOther⟩ := again
  obtain rfl := Option.some.inj (same.symm.trans found)
  exact Option.some.inj (isOther.symm.trans isText)

namespace Support

/-- The support serves a target that `served` allows: it resolves a call, or a script enters a marker
with the text that the marker carries. -/
inductive Serves (served : Target → Prop) : Support → Support → Prop
  | call {support after : Support} {target : Target} {signature : String} {procedure : Option Routine}
      (allowed : served target) (done : support.resolve target signature = .ok (procedure, after)) :
      Serves served support after
  | enter {support after : Support} {target : Target} {id source : String} {routine : Routine}
      (allowed : served target) (own : ∀ text, target.Carries id text → source = text)
      (done : support.markerRoutine target.name id source = .ok (routine, after)) :
      Serves served support after

/-- What is kept for a target agrees with its markers. -/
structure Agrees (helpers : Table Helper) (target : Target) (support : Support) : Prop where
  sameHelpers : support.helpers = helpers
  /-- A routine that is kept for a marker is loaded from its text. -/
  markers : ∀ id text routine, target.Carries id text →
    support.markers.get? (target.name, id) = some routine → Routine.load text helpers = .ok routine
  /-- A procedure without marker has no routine. -/
  missing : ∀ proccode procedure, target.procedureMarker? proccode = none →
    support.procedures.get? (target.name, proccode) = some procedure → procedure = none
  /-- A procedure with marker has the routine of the marker. -/
  present : ∀ proccode id text procedure, target.procedureMarker? proccode = some (id, text) →
    target.Carries id text → support.procedures.get? (target.name, proccode) = some procedure →
    ∃ routine, procedure = some routine ∧ Routine.load text helpers = .ok routine

variable {helpers : Table Helper} {target other : Target} {support after : Support}
  {id source signature : String} {routine : Routine} {procedure : Option Routine}

/-- The routine of a marker is the one that is kept for it, or else it is loaded and kept. -/
theorem markerRoutine_eq_ok {name : String} :
    support.markerRoutine name id source = .ok (routine, after) ↔
      (support.markers.get? (name, id) = some routine ∧ after = support) ∨
        (support.markers.get? (name, id) = none ∧
          Routine.load source support.helpers = .ok routine ∧
          after = { support with markers := support.markers.add (name, id) routine }) := by
  unfold markerRoutine
  cases support.markers.get? (name, id) with
  | some kept =>
      simp only [Except.ok.injEq, Prod.mk.injEq, Option.some.injEq, reduceCtorEq, false_and, or_false,
        eq_comm (a := support)]
  | none =>
      simp only [bind_eq_ok, reduceCtorEq, false_and, false_or, true_and]
      constructor
      · rintro ⟨loaded, isLoaded, same⟩
        obtain ⟨rfl, rfl⟩ := Prod.mk.inj (Except.ok.inj same)
        exact ⟨isLoaded, rfl⟩
      · rintro ⟨isLoaded, rfl⟩
        exact ⟨routine, isLoaded, rfl⟩

/-- Entering a marker keeps the agreement. -/
theorem Agrees.markerRoutine (agrees : support.Agrees helpers target)
    (alone : other.name = target.name → other = target)
    (own : ∀ text, other.Carries id text → source = text)
    (done : support.markerRoutine other.name id source = .ok (routine, after)) :
    after.Agrees helpers target := by
  rcases markerRoutine_eq_ok.mp done with ⟨-, rfl⟩ | ⟨absent, loaded, rfl⟩
  · exact agrees
  · refine ⟨agrees.sameHelpers, ?_, agrees.missing, agrees.present⟩
    intro marker text kept carries found
    rcases Cache.get?_add.mp found with before | ⟨-, same, rfl⟩
    · exact agrees.markers marker text kept carries before
    · obtain ⟨sameName, rfl⟩ := Prod.mk.inj same
      obtain rfl := alone sameName
      obtain rfl := own text carries
      rw [← agrees.sameHelpers, loaded]

/-- The marker of a procedure is read as what it carries. -/
theorem own_of_procedureMarker? {proccode : String}
    (found : other.procedureMarker? proccode = some (id, source)) :
    ∀ text, other.Carries id text → source = text := by
  rintro text ⟨marker, isMarker, isText⟩
  simp only [Target.procedureMarker?, Option.bind_eq_bind, Option.bind_eq_some_iff] at found
  obtain ⟨_, -, _, -, _, -, next, -, block, isBlock, found⟩ := found
  split at found
  next =>
    simp only [Option.bind_eq_some_iff, Option.pure_def, Option.some.injEq, Prod.mk.injEq] at found
    obtain ⟨shown, isShown, rfl, rfl⟩ := found
    obtain rfl := Option.some.inj (isBlock.symm.trans isMarker)
    simpa [Target.markerSource?, isText, eq_comm] using isShown
  next => simp at found

theorem resolve_cases (done : support.resolve other signature = .ok (procedure, after)) :
    after = support ∨
      (other.procedureMarker? (proccodeOf signature) = none ∧ procedure = none ∧
        after = { support with
          procedures := support.procedures.add (other.name, proccodeOf signature) none }) ∨
      ∃ id source routine middle,
        other.procedureMarker? (proccodeOf signature) = some (id, source) ∧
        support.markerRoutine other.name id source = .ok (routine, middle) ∧
        procedure = some routine ∧
        after = { middle with
          procedures := middle.procedures.add (other.name, proccodeOf signature) (some routine) } := by
  unfold resolve at done
  dsimp only at done
  split at done
  next => exact .inl (Prod.mk.inj (Except.ok.inj done)).2.symm
  next =>
    split at done
    next missing =>
      obtain ⟨rfl, rfl⟩ := Prod.mk.inj (Except.ok.inj done)
      exact .inr (.inl ⟨missing, rfl, rfl⟩)
    next id source found =>
      obtain ⟨⟨routine, middle⟩, entered, same⟩ := bind_eq_ok.mp done
      obtain ⟨rfl, rfl⟩ := Prod.mk.inj (Except.ok.inj same)
      exact .inr (.inr ⟨id, source, routine, middle, found, entered, rfl, rfl⟩)

/-- A marker that is entered with what it carries gives the routine of its text. -/
theorem Agrees.load_of_markerRoutine (agrees : support.Agrees helpers target)
    (carries : target.Carries id source)
    (done : support.markerRoutine target.name id source = .ok (routine, after)) :
    Routine.load source helpers = .ok routine := by
  rcases markerRoutine_eq_ok.mp done with ⟨kept, -⟩ | ⟨-, loaded, -⟩
  · exact agrees.markers id source routine carries kept
  · exact agrees.sameHelpers ▸ loaded

/-- Resolving a call keeps the agreement. -/
theorem Agrees.resolve (agrees : support.Agrees helpers target)
    (alone : other.name = target.name → other = target)
    (done : support.resolve other signature = .ok (procedure, after)) :
    after.Agrees helpers target := by
  rcases resolve_cases done with rfl | ⟨missing, rfl, rfl⟩ |
    ⟨id, source, routine, middle, found, entered, rfl, rfl⟩
  · exact agrees
  · refine ⟨agrees.sameHelpers, agrees.markers, ?_, ?_⟩
    · intro proccode procedure absent kept
      rcases Cache.get?_add.mp kept with before | ⟨-, -, rfl⟩
      · exact agrees.missing proccode procedure absent before
      · rfl
    · intro proccode id text procedure found carries kept
      rcases Cache.get?_add.mp kept with before | ⟨-, same, -⟩
      · exact agrees.present proccode id text procedure found carries before
      · obtain ⟨sameName, rfl⟩ := Prod.mk.inj same
        obtain rfl := alone sameName
        exact absurd (missing.symm.trans found) (by simp)
  · have own := own_of_procedureMarker? found
    have still := agrees.markerRoutine alone own entered
    refine ⟨still.sameHelpers, still.markers, ?_, ?_⟩
    · intro proccode procedure absent kept
      rcases Cache.get?_add.mp kept with before | ⟨-, same, -⟩
      · exact still.missing proccode procedure absent before
      · obtain ⟨sameName, rfl⟩ := Prod.mk.inj same
        obtain rfl := alone sameName
        exact absurd (absent.symm.trans found) (by simp)
    · intro proccode marker text procedure isMarker carries kept
      rcases Cache.get?_add.mp kept with before | ⟨-, same, rfl⟩
      · exact still.present proccode marker text procedure isMarker carries before
      · obtain ⟨sameName, rfl⟩ := Prod.mk.inj same
        obtain rfl := alone sameName
        obtain ⟨rfl, rfl⟩ := Prod.mk.inj (Option.some.inj (found.symm.trans isMarker))
        exact ⟨routine, rfl, agrees.load_of_markerRoutine carries entered⟩

/-- The agreement lasts as long as no other target of the same name is served. -/
theorem Agrees.of_serves {served : Target → Prop}
    (alone : ∀ other, served other → other.name = target.name → other = target)
    (agrees : support.Agrees helpers target)
    (run : Relation.ReflTransGen (Serves served) support after) : after.Agrees helpers target := by
  induction run with
  | refl => exact agrees
  | tail _ step ih =>
      cases step with
      | call allowed done => exact ih.resolve (alone _ allowed) done
      | enter allowed own done => exact ih.markerRoutine (alone _ allowed) own done

theorem agrees_of_fresh {version : String} {entered : Bool} :
    (⟨version, helpers, .empty, .empty, entered⟩ : Support).Agrees helpers target :=
  ⟨rfl, by simp [Cache.get?, Cache.empty], by simp [Cache.get?, Cache.empty],
    by simp [Cache.get?, Cache.empty]⟩

/-- A call of a procedure without marker does nothing. -/
theorem Agrees.resolve_missing (agrees : support.Agrees helpers target)
    (missing : target.procedureMarker? (proccodeOf signature) = none) :
    ∃ after, support.resolve target signature = .ok (none, after) := by
  unfold Support.resolve
  dsimp only
  split
  next procedure kept =>
    obtain rfl := agrees.missing _ _ missing kept
    exact ⟨support, rfl⟩
  next => exact ⟨_, by rw [missing]⟩

/-- A marker that is entered with what it carries is loaded, or has been. -/
theorem Agrees.exists_markerRoutine (agrees : support.Agrees helpers target)
    (carries : target.Carries id source) (loads : Routine.load source helpers = .ok routine) :
    ∃ after, support.markerRoutine target.name id source = .ok (routine, after) := by
  cases kept : support.markers.get? (target.name, id) with
  | some other =>
      obtain rfl := Except.ok.inj ((agrees.markers _ _ _ carries kept).symm.trans loads)
      exact ⟨_, markerRoutine_eq_ok.mpr (.inl ⟨kept, rfl⟩)⟩
  | none =>
      rw [← agrees.sameHelpers] at loads
      exact ⟨_, markerRoutine_eq_ok.mpr (.inr ⟨kept, loads, rfl⟩)⟩

/-- A call of a procedure with a marker runs what is loaded from the text of the marker. -/
theorem Agrees.resolve_present (agrees : support.Agrees helpers target)
    (found : target.procedureMarker? (proccodeOf signature) = some (id, source))
    (carries : target.Carries id source) (loads : Routine.load source helpers = .ok routine) :
    ∃ after, support.resolve target signature = .ok (some routine, after) := by
  unfold Support.resolve
  dsimp only
  split
  next procedure kept =>
    obtain ⟨other, rfl, isOther⟩ := agrees.present _ _ _ _ found carries kept
    obtain rfl := Except.ok.inj (isOther.symm.trans loads)
    exact ⟨support, rfl⟩
  next =>
    obtain ⟨after, entered⟩ := agrees.exists_markerRoutine carries loads
    rw [found]
    dsimp only
    rw [entered]
    exact ⟨_, rfl⟩

end Support

end StepCode
