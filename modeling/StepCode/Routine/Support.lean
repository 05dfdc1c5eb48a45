import StepCode.Marker
import StepCode.Routine.Load

/-!
# Support for compiled code

The approved helpers and the routines that have been loaded.  A routine is loaded when it is first
needed and kept for good.
-/

namespace StepCode

/-- Values by target and by a name in it.  What is stored first stays. -/
structure Cache (α : Type) where
  entries : List ((String × String) × α)

namespace Cache

variable {α : Type}

def empty : Cache α := ⟨[]⟩

def get? (cache : Cache α) (key : String × String) : Option α :=
  (cache.entries.find? fun entry => entry.1 == key).map (·.2)

/-- Store under a key that is not in use. -/
def add (cache : Cache α) (key : String × String) (value : α) : Cache α :=
  ⟨cache.entries ++ [(key, value)]⟩

def size (cache : Cache α) : Nat := cache.entries.length

end Cache

structure Support where
  version : String
  helpers : Table Helper
  /-- Routines by signature; none if a signature has no compiled body. -/
  procedures : Cache (Option Routine)
  /-- Routines by the id of their marker. -/
  markers : Cache Routine
  /-- Whether compiled code has been entered. -/
  entered : Bool

namespace Support

def ofBootstrap (bootstrap : Bootstrap) : Support :=
  ⟨bootstrap.version, approvedHelpers bootstrap.helpers, .empty, .empty, false⟩

/-- The routine of a marker.  `source` is read only if the marker is met for the first time. -/
def markerRoutine (support : Support) (target marker source : String) :
    Except LoadError (Routine × Support) :=
  match support.markers.get? (target, marker) with
  | some routine => .ok (routine, support)
  | none => do
      let routine ← Routine.load source support.helpers
      return (routine, { support with markers := support.markers.add (target, marker) routine })

/-- The routine that a call runs; none if the procedure has no compiled body. -/
def resolve (support : Support) (target : Target) (signature : String) :
    Except LoadError (Option Routine × Support) :=
  let key := (target.name, proccodeOf signature)
  match support.procedures.get? key with
  | some procedure => .ok (procedure, support)
  | none =>
      match target.procedureMarker? (proccodeOf signature) with
      | none => .ok (none, { support with procedures := support.procedures.add key none })
      | some (marker, source) => do
          let (routine, support) ← support.markerRoutine target.name marker source
          return (some routine,
            { support with procedures := support.procedures.add key (some routine) })

end Support

end StepCode
