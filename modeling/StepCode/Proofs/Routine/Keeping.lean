import Mathlib.Data.List.Nodup
import StepCode.Proofs.Routine.Scriptless

/-!
# What the support keeps

The support keeps routines by marker and answers by signature.  As long as markers are entered with the
text that they carry, what it has kept is what would be found anew, so it makes no difference in which
order calls are made and markers are entered.
-/

namespace StepCode

/-! ## Lookups -/

/-- A marker stands under the id, and the text is its step code. -/
def Target.Marks (target : Target) (id text : String) : Prop :=
  ∃ marker, target.block? id = some marker ∧ marker.opcode = markerOpcode ∧
    target.markerSource? marker = some text

theorem Target.Marks.eq {target : Target} {id text other : String} (marks : target.Marks id text)
    (again : target.Marks id other) : other = text := by
  obtain ⟨marker, found, -, shown⟩ := marks
  obtain ⟨_, same, -, isOther⟩ := again
  obtain rfl := Option.some.inj (same.symm.trans found)
  exact Option.some.inj (isOther.symm.trans shown)

theorem Target.marks_of_procedureMarker? {target : Target} {proccode id text : String}
    (found : target.procedureMarker? proccode = some (id, text)) : target.Marks id text :=
  LoadedProgram.exists_of_procedureMarker? found

/-- What a call of the signature comes to if nothing has been kept. -/
def Target.lookUp (target : Target) (helpers : Table Helper) (signature : String) :
    Except LoadError (Option Routine) :=
  match target.procedureMarker? (proccodeOf signature) with
  | none => .ok none
  | some (_, text) => (Routine.load text helpers).map some

/-- The letters for the two kinds of calls are not part of what is looked up. -/
theorem proccodeOf_warp (bare : String) :
    proccodeOf ("W" ++ bare) = bare ∧ proccodeOf ("Z" ++ bare) = bare := by
  constructor
  · simp [proccodeOf, String.toList_append]
  · simp [proccodeOf, String.toList_append]

namespace Support

/-- What is kept stays, under the same key. -/
structure Grows (before after : Support) : Prop where
  helpers : after.helpers = before.helpers
  markers : ∀ key routine, before.markers.get? key = some routine →
    after.markers.get? key = some routine
  procedures : ∀ key procedure, before.procedures.get? key = some procedure →
    after.procedures.get? key = some procedure

namespace Grows

variable {first second third : Support}

theorem refl (support : Support) : support.Grows support := ⟨rfl, fun _ _ => id, fun _ _ => id⟩

theorem trans (one : first.Grows second) (other : second.Grows third) : first.Grows third where
  helpers := other.helpers.trans one.helpers
  markers key routine found := other.markers key routine (one.markers key routine found)
  procedures key procedure found := other.procedures key procedure (one.procedures key procedure found)

theorem addMarker (support : Support) (key : String × String) (routine : Routine) :
    support.Grows { support with markers := support.markers.add key routine } :=
  ⟨rfl, fun _ _ found => Cache.get?_add.mpr (.inl found), fun _ _ => id⟩

theorem addProcedure (support : Support) (key : String × String) (procedure : Option Routine) :
    support.Grows { support with procedures := support.procedures.add key procedure } :=
  ⟨rfl, fun _ _ => id, fun _ _ found => Cache.get?_add.mpr (.inl found)⟩

end Grows

/-- What is kept under the name of a procedure is what is kept for its marker. -/
def Shares (support : Support) (target : Target) (proccode : String) (procedure : Option Routine) :
    Prop :=
  (target.procedureMarker? proccode = none ∧ procedure = none) ∨
    ∃ id text routine, target.procedureMarker? proccode = some (id, text) ∧ procedure = some routine ∧
      support.markers.get? (target.name, id) = some routine

theorem Shares.grows {support after : Support} {target : Target} {proccode : String}
    {procedure : Option Routine} (shares : support.Shares target proccode procedure)
    (grows : support.Grows after) : after.Shares target proccode procedure := by
  rcases shares with missing | ⟨id, text, routine, found, isRoutine, kept⟩
  · exact .inl missing
  · exact .inr ⟨id, text, routine, found, isRoutine, grows.markers _ _ kept⟩

end Support

/-! ## Agreement with the program -/

namespace LoadedProgram

variable {program : LoadedProgram}

/-- What the support keeps is what is found in the blocks of the program. -/
structure Backs (program : LoadedProgram) (support : Support) : Prop where
  helpers : support.helpers = program.helpers
  /-- A routine is loaded from the text of its marker. -/
  markers : ∀ target ∈ program.targets, ∀ id routine,
    support.markers.get? (target.name, id) = some routine →
      ∃ text, target.Marks id text ∧ Routine.load text program.helpers = .ok routine
  procedures : ∀ target ∈ program.targets, ∀ proccode procedure,
    support.procedures.get? (target.name, proccode) = some procedure →
      support.Shares target proccode procedure

theorem backs_of_fresh {version : String} {entered : Bool} :
    program.Backs ⟨version, program.helpers, .empty, .empty, entered⟩ :=
  ⟨rfl, by simp [Cache.get?, Cache.empty], by simp [Cache.get?, Cache.empty]⟩

/-- Targets of a program are told apart by their names. -/
def Distinct (program : LoadedProgram) : Prop := (program.targets.map Target.name).Nodup

theorem Distinct.eq (distinct : program.Distinct) {target other : Target}
    (mem : target ∈ program.targets) (otherMem : other ∈ program.targets)
    (same : other.name = target.name) : other = target :=
  List.inj_on_of_nodup_map distinct otherMem mem same

namespace Backs

variable {support : Support} {target : Target} {id text signature : String}

/-- Entering a marker with its own text gives what is loaded from the text, which is then kept for it.
If the text cannot be loaded, nothing is kept. -/
theorem markerRoutine (backs : program.Backs support) (distinct : program.Distinct)
    (mem : target ∈ program.targets) (marks : target.Marks id text) :
    (∃ routine after, Routine.load text program.helpers = .ok routine ∧
        support.markerRoutine target.name id text = .ok (routine, after) ∧ program.Backs after ∧
        support.Grows after ∧ after.markers.get? (target.name, id) = some routine) ∨
      ∃ error, Routine.load text program.helpers = .error error ∧
        support.markerRoutine target.name id text = .error error := by
  unfold Support.markerRoutine
  cases kept : support.markers.get? (target.name, id) with
  | some routine =>
      obtain ⟨own, again, loaded⟩ := backs.markers target mem id routine kept
      obtain rfl := marks.eq again
      exact .inl ⟨routine, support, loaded, rfl, backs, .refl _, kept⟩
  | none =>
      cases loaded : Routine.load text program.helpers with
      | error error => exact .inr ⟨error, rfl, by rw [backs.helpers, loaded]; rfl⟩
      | ok routine =>
          have grows := Support.Grows.addMarker support (target.name, id) routine
          have isKept : (support.markers.add (target.name, id) routine).get? (target.name, id) =
              some routine := Cache.get?_add.mpr (.inr ⟨kept, rfl, rfl⟩)
          refine .inl ⟨routine, _, rfl, by rw [backs.helpers, loaded]; rfl, ?_, grows, isKept⟩
          refine ⟨backs.helpers, fun other otherMem marker found isFound => ?_, ?_⟩
          · rcases Cache.get?_add.mp isFound with before | ⟨-, same, rfl⟩
            · exact backs.markers other otherMem marker found before
            · obtain ⟨sameName, rfl⟩ := Prod.mk.inj same
              obtain rfl := distinct.eq otherMem mem sameName
              exact ⟨text, marks, loaded⟩
          · intro other otherMem proccode procedure found
            exact (backs.procedures other otherMem proccode procedure found).grows grows

/-- What has been kept for a signature is what would be found. -/
theorem lookUp_of_shares (backs : program.Backs support) (mem : target ∈ program.targets)
    {procedure : Option Routine} (shares : support.Shares target (proccodeOf signature) procedure) :
    target.lookUp program.helpers signature = .ok procedure := by
  unfold Target.lookUp
  rcases shares with ⟨missing, rfl⟩ | ⟨id, text, routine, found, rfl, kept⟩
  · rw [missing]
  · obtain ⟨own, marks, loaded⟩ := backs.markers target mem id routine kept
    obtain rfl := marks.eq (Target.marks_of_procedureMarker? found)
    rw [found]
    dsimp only
    rw [loaded]
    rfl

/-- A call is answered with what is found in the blocks, and the answer is then kept with its marker.
If it fails, nothing is kept. -/
theorem resolve (backs : program.Backs support) (distinct : program.Distinct)
    (mem : target ∈ program.targets) :
    (∃ procedure after, target.lookUp program.helpers signature = .ok procedure ∧
        support.resolve target signature = .ok (procedure, after) ∧ program.Backs after ∧
        support.Grows after ∧
        after.procedures.get? (target.name, proccodeOf signature) = some procedure ∧
        after.Shares target (proccodeOf signature) procedure) ∨
      ∃ error, target.lookUp program.helpers signature = .error error ∧
        support.resolve target signature = .error error := by
  -- An answer that is new is kept beside what the support has come to meanwhile.
  have keep : ∀ middle procedure, program.Backs middle → support.Grows middle →
      middle.procedures.get? (target.name, proccodeOf signature) = none →
      middle.Shares target (proccodeOf signature) procedure →
      let after := { middle with
        procedures := middle.procedures.add (target.name, proccodeOf signature) procedure }
      program.Backs after ∧ support.Grows after ∧
        after.procedures.get? (target.name, proccodeOf signature) = some procedure ∧
        after.Shares target (proccodeOf signature) procedure := by
    intro middle procedure still grown absent shares
    have grows := Support.Grows.addProcedure middle (target.name, proccodeOf signature) procedure
    refine ⟨⟨still.helpers, still.markers, fun other otherMem proccode found isFound => ?_⟩,
      grown.trans grows, Cache.get?_add.mpr (.inr ⟨absent, rfl, rfl⟩), shares.grows grows⟩
    rcases Cache.get?_add.mp isFound with before | ⟨-, same, rfl⟩
    · exact (still.procedures other otherMem proccode found before).grows grows
    · obtain ⟨sameName, rfl⟩ := Prod.mk.inj same
      obtain rfl := distinct.eq otherMem mem sameName
      exact shares.grows grows
  unfold Support.resolve
  dsimp only
  cases kept : support.procedures.get? (target.name, proccodeOf signature) with
  | some procedure =>
      have shares := backs.procedures target mem _ procedure kept
      exact .inl ⟨procedure, support, backs.lookUp_of_shares mem shares, rfl, backs, .refl _, kept, shares⟩
  | none =>
      cases found : target.procedureMarker? (proccodeOf signature) with
      | none =>
          have shares : support.Shares target (proccodeOf signature) none := .inl ⟨found, rfl⟩
          exact .inl ⟨none, _, backs.lookUp_of_shares mem shares, rfl,
            keep support none backs (.refl _) kept shares⟩
      | some entry =>
          obtain ⟨id, text⟩ := entry
          have marks := Target.marks_of_procedureMarker? found
          rcases backs.markerRoutine distinct mem marks with
            ⟨routine, middle, loaded, entered, still, grown, isKept⟩ | ⟨error, failed, entered⟩
          · have shares : middle.Shares target (proccodeOf signature) (some routine) :=
              .inr ⟨id, text, routine, found, rfl, isKept⟩
            have same : middle.procedures = support.procedures := by
              rcases Support.markerRoutine_eq_ok.mp entered with ⟨-, rfl⟩ | ⟨-, -, rfl⟩ <;> rfl
            exact .inl ⟨some routine, _, still.lookUp_of_shares mem shares, by simp only [entered]; rfl,
              keep middle (some routine) still grown (same ▸ kept) shares⟩
          · refine .inr ⟨error, ?_, by simp only [entered]; rfl⟩
            rw [Target.lookUp, found]
            dsimp only
            rw [failed]
            rfl

end Backs

end LoadedProgram

end StepCode
