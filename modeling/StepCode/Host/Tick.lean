import StepCode.Routine.Run
import StepCode.Thread.Interpret

/-!
# Ticks

In a tick every thread gets one turn, in the order of the list.  Scripts that are started during a
tick run from the next one on.
-/

namespace StepCode

/-- How long a turn may take: steps of a thread, and reporters nested in a slot.  A turn that would
take longer has no result. -/
structure Limits where
  steps : Nat
  depth : Nat
deriving DecidableEq, Repr

namespace Turn

/-- Compiled code has ended: go on behind the marker. -/
def finish? (foreign : Foreign) (limits : Limits) (turn : Turn) : Option Turn :=
  interpret? foreign limits.depth limits.steps turn.moveOn

/-- One turn of a thread: its compiled code if it has any, its blocks otherwise. -/
def take? (foreign : Foreign) (limits : Limits) (turn : Turn) : Option Turn :=
  match turn.thread.compiled with
  | none => interpret? foreign limits.depth limits.steps turn
  | some sequence =>
      let detached := { turn with thread := { turn.thread with compiled := none } }
      match sequence.run? foreign limits.steps detached with
      | none => none
      | some (.error error, turn) => some (turn.fail error)
      | some (.ok rest, turn) =>
          if turn.thread.isDone then some turn
          else
            match rest with
            | .suspended sequence =>
                some { turn with thread := { turn.thread with compiled := some sequence } }
            | .ended _ => turn.finish? foreign limits
            | .retired => some turn

end Turn

namespace Host

/-- The turn of the thread at `index`, then the stop requests made meanwhile. -/
def stepAt? (foreign : Foreign) (limits : Limits) (state : Host × List Thread) (index : Nat) :
    Option (Host × List Thread) :=
  let (host, stepping) := state
  match stepping[index]? with
  | none => some state
  | some thread =>
      if thread.isDone then some (host.carryOutStops stepping)
      else
        match Turn.take? foreign limits ⟨host, thread⟩ with
        | none => none
        | some turn => some (turn.host.carryOutStops (stepping.set index turn.thread))

/-- The threads after a tick: those that are left, then those that were started.  A script that was
started anew does not go on with its old thread. -/
def remaining (stepping started : List Thread) : List Thread :=
  (stepping.filter fun thread => !thread.isDone && !started.any (·.sameScript thread)) ++ started

/-- One tick; nothing if a turn has no result. -/
def tick? (foreign : Foreign) (limits : Limits) (host : Host) : Option Host := do
  let host := host.readClock
  let stepping := host.threads.map Thread.wake
  let start := { host with ticks := host.ticks + 1, tickStarted := host.now, threads := [] }
  let (host, stepping) ←
    (List.range stepping.length).foldlM (stepAt? foreign limits) (start, stepping)
  return { host with threads := remaining stepping host.threads }

/-- Ticks until no thread is left, but at most `most`; the number of ticks. -/
def runToIdle? (foreign : Foreign) (limits : Limits) : (most : Nat) → Host →
    Option (Host × Nat)
  | 0, host => some (host, 0)
  | most + 1, host =>
      if host.threads.isEmpty then some (host, 0)
      else do
        let (host, ticks) ← runToIdle? foreign limits most (← host.tick? foreign limits)
        return (host, ticks + 1)

end Host

end StepCode
