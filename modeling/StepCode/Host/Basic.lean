import StepCode.Palette
import StepCode.Routine.Support
import StepCode.Thread.Basic
import StepCode.Thread.Error
import StepCode.Value.OfJson

/-!
# The host

Targets with the current values of their variables, and the threads that run on them.  Time is
counted in nanoseconds.  It passes when the host is told so, and from one look at the clock to the next.
-/

namespace StepCode

/-- A target as it runs. -/
structure LiveTarget where
  data : Target
  vars : Table Value
  /-- All that was said or thought, in order. -/
  said : List String

def LiveTarget.start (target : Target) : LiveTarget where
  data := target
  vars := .ofList (target.variableValues.map fun (name, value) => (name, Value.ofJson value))
  said := []

/-- An error that ended a script. -/
structure ScriptError where
  target : String
  topBlock : String
  message : String
deriving DecidableEq, Repr

/-- A request to end threads, carried out during a tick. -/
inductive StopRequest where
  | all
  | others (target keep : Nat)
deriving DecidableEq, Repr

def StopRequest.hits (thread : Thread) : StopRequest → Bool
  | .all => true
  | .others target keep => thread.target == target && thread.id != keep

structure Host where
  targets : List LiveTarget
  threads : List Thread
  extensions : Table Extension
  support : Option Support
  unsandboxed : Bool
  locale : String
  /-- What the clock showed last. -/
  now : Nat
  /-- How far the clock moves until it is read next, until it is read then, and so on.  Behind these
  it stands still. -/
  drift : List Nat
  tickStarted : Nat
  ticks : Nat
  nextThread : Nat
  errors : List ScriptError
  stops : List StopRequest

namespace Host

/-- A host for a program, with no script started. -/
def start (project : Project) : Host where
  targets := project.targets.map LiveTarget.start
  threads := []
  extensions := .empty
  support := none
  unsandboxed := false
  locale := "en"
  now := 0
  drift := []
  tickStarted := 0
  ticks := 0
  nextThread := 0
  errors := []
  stops := []

/-- Move the clock. -/
def advanceClock (host : Host) (nanoseconds : Nat) : Host :=
  { host with now := host.now + nanoseconds }

/-- Read the clock.  What it shows now is in `now` afterwards. -/
def readClock (host : Host) : Host :=
  { host with now := host.now + host.drift.headD 0, drift := host.drift.tail }

def tickAge (host : Host) : Nat := host.now - host.tickStarted

/-- A tick that runs for more than half a second is overdue: even warp gives it up then. -/
def isOverdue (host : Host) : Bool := 500000000 < host.tickAge

/-- A span of time in milliseconds, by way of seconds. -/
def milliseconds (nanoseconds : Nat) : Float :=
  (Float.ofNat (nanoseconds / 1000000000) + Float.ofNat (nanoseconds % 1000000000) / 1e9) * 1000.0

def target? (host : Host) (name : String) : Option LiveTarget :=
  host.targets.find? fun target => target.data.name == name

def stage? (host : Host) : Option LiveTarget :=
  host.targets.find? fun target => target.data.isStage

def block? (host : Host) (target : Nat) (id : String) : Option Block :=
  host.targets[target]?.bind fun live => live.data.block? id

def targetName (host : Host) (target : Nat) : String :=
  match host.targets[target]? with
  | some live => live.data.name
  | none => ""

/-! ## Variables -/

/-- The value of a variable of the target, or else of the stage. -/
def getVariable (host : Host) (target : Nat) (name : String) : Value :=
  match host.targets[target]?.bind fun live => live.vars.get? name with
  | some value => value
  | none => (host.stage?.bind fun stage => stage.vars.get? name).getD .empty

/-- The number of the target that a write goes to: the target itself, unless only a stage has the
variable. -/
def variableOwner (host : Host) (target : Nat) (name : String) : Nat :=
  match host.targets[target]? with
  | none => target
  | some live =>
      if live.vars.contains name then target
      else
        (host.targets.findIdx? fun other =>
          other.data.isStage && other.vars.contains name).getD target

def setVariable (host : Host) (target : Nat) (name : String) (value : Value) : Host :=
  { host with
    targets := host.targets.modify (host.variableOwner target name) fun live =>
      { live with vars := live.vars.insert name value } }

def say (host : Host) (target : Nat) (message : String) : Host :=
  { host with
    targets := host.targets.modify target fun live =>
      { live with said := live.said ++ [message] } }

/-! ## Starting and stopping scripts -/

/-- Whether a block is a hat that an event starts; a field is compared without regard to case. -/
def startsOn (opcode : String) (field : Option (String × String)) (block : Block) : Bool :=
  block.opcode == opcode && block.topLevel &&
    match field with
    | none => true
    | some (name, expected) =>
        match block.fieldText? name with
        | some value => Text.sameIgnoringAsciiCase value expected
        | none => false

/-- The hats that an event starts, with the numbers of their targets. -/
def matchingHats (host : Host) (opcode : String) (field : Option (String × String)) :
    List (Nat × String) :=
  host.targets.zipIdx.flatMap fun (live, index) =>
    (live.data.blockList.filter fun (_, block) => startsOn opcode field block).map fun (id, _) =>
      (index, id)

/-- Start a script.  If it is running already it starts anew. -/
def startThread (host : Host) (target : Nat) (topBlock : String) : Host :=
  let thread := Thread.start host.nextThread target topBlock
  { host with
    threads := host.threads.filter (fun other => !other.sameScript thread) ++ [thread]
    nextThread := host.nextThread + 1 }

/-- Start scripts one after the other; the ids of the threads. -/
def startThreads (host : Host) : List (Nat × String) → Host × List Nat
  | [] => (host, [])
  | (target, topBlock) :: rest =>
      let (after, ids) := (host.startThread target topBlock).startThreads rest
      (after, host.nextThread :: ids)

/-- Start a thread for every hat of an event. -/
def startHats (host : Host) (opcode : String) (field : Option (String × String)) :
    Host × List Nat :=
  host.startThreads (host.matchingHats opcode field)

def greenFlag (host : Host) : Host × List Nat :=
  host.startHats "event_whenflagclicked" none

def broadcast (host : Host) (message : String) : Host × List Nat :=
  host.startHats "event_whenbroadcastreceived" (some ("BROADCAST_OPTION", message))

def requestStop (host : Host) (stop : StopRequest) : Host :=
  { host with stops := host.stops ++ [stop] }

/-- End every thread at once. -/
def stopAll (host : Host) : Host :=
  { host with threads := [], stops := [] }

/-- Carry out the stop requests on the threads of a tick and on those that it started. -/
def carryOutStops (host : Host) (stepping : List Thread) : Host × List Thread :=
  let stopped (thread : Thread) : Thread :=
    if host.stops.any (StopRequest.hits thread) then thread.retire else thread
  ({ host with threads := host.threads.map stopped, stops := [] }, stepping.map stopped)

/-! ## Extensions -/

/-- What an extension shows; the one for compiled code shows its version. -/
def infoOf (host : Host) (locale : String) : Extension → ExtensionInfo
  | .support => supportInfo ((host.support.map Support.version).getD "") locale
  | .foreign info => info

def info? (host : Host) (id locale : String) : Option ExtensionInfo :=
  (host.extensions.get? id).map (host.infoOf locale)

/-- Register an extension under its id.  One that needs to run unsandboxed is refused unless the
host allows that. -/
def register (host : Host) (extension : Extension) : Except RunError Host :=
  let info := host.infoOf host.locale extension
  if info.needsUnsandboxed && !host.unsandboxed then .error (.sandboxed info.id)
  else .ok { host with extensions := host.extensions.insert info.id extension }

end Host

end StepCode
