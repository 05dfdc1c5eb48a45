import StepCode.Host.Tick
import StepCode.Proofs.Routine.Running
import StepCode.Proofs.Simulation.Following

/-!
# Whole turns

Compiled code keeps up with the interpreter until the thread gives up the tick or ends, and the turn
of the compiled thread comes to the same.
-/

namespace StepCode

section

variable {world : World} {foreign : Foreign} {depth : Nat} {left last right after : Turn}
  {sequence next : Sequence}

/-- How a turn ends: the thread goes on in a later tick, or the script has ended. -/
inductive World.Rests (world : World) (left : Turn) : Rest → Turn → Prop
  | suspended {next : Sequence} {after : Turn} (yielded : left.thread.status = .yielded)
      (follow : world.Matches { left with thread := left.thread.wake } next after) :
      Rests world left (.suspended next) after
  | ended {rest : Rest} {after : Turn} (ended : world.Ended left rest after) :
      Rests world left rest after

/-- Compiled code comes to rest where the interpreter does, or has run to where the interpreter
goes on. -/
theorem KeepsUp.cases {goesOn : Bool} (keepsUp : KeepsUp world foreign left goesOn sequence right) :
    (goesOn = true ∧ ∃ steps next after, world.Matches left next after ∧
      ∀ fuel outcome, next.run? foreign fuel after = some outcome →
        sequence.run? foreign (fuel + steps) right = some outcome) ∨
      ((goesOn = true → left.thread.status = .done) ∧
        ∃ fuel rest after, sequence.run? foreign fuel right = some (.ok rest, after) ∧
          world.Rests left rest after) := by
  induction keepsUp with
  | goes follow => exact .inl ⟨rfl, 0, _, _, follow, fun fuel outcome ran => ran⟩
  | rests step yielded follow =>
      exact .inr ⟨nofun, 1, _, _, Sequence.run?_of_rests step, .suspended yielded follow⟩
  | ends step ended =>
      refine .inr ⟨fun _ => ?_, 1, _, _, Sequence.run?_of_rests step, .ended ended⟩
      rw [ended.leftEnded]
      rfl
  | steps step _ ih =>
      rcases ih with ⟨goesOn, steps, next, after, follow, runs⟩ | ⟨isDone, fuel, rest, after, ran, rests⟩
      · exact .inl ⟨goesOn, steps + 1, next, after, follow,
          fun fuel outcome ran => Sequence.run?_of_more step (runs fuel outcome ran)⟩
      · exact .inr ⟨isDone, fuel + 1, rest, after, Sequence.run?_of_more step ran, rests⟩

/-- Compiled code comes to rest where the interpreter does. -/
theorem World.Matches.exists_run? (sound : world.Sound) {fuel : Nat}
    (follow : world.Matches left sequence right)
    (ran : interpret? foreign depth fuel left = some last) :
    ∃ enough rest after, sequence.run? foreign enough right = some (.ok rest, after) ∧
      world.Rests last rest after := by
  induction fuel generalizing left sequence right with
  | zero => simp [interpret?, follow.leftRunning] at ran
  | succ fuel ih =>
      rw [interpret?, if_neg (by simp [follow.leftRunning])] at ran
      cases stepped : interpretStep? foreign depth left with
      | none => simp [stepped] at ran
      | some result =>
          obtain ⟨middle, goesOn⟩ := result
          have keepsUp := follow.keepsUp sound stepped
          simp only [stepped] at ran
          cases goesOn with
          | false =>
              obtain rfl := Option.some.inj ran
              rcases keepsUp.cases with ⟨goesOn, -⟩ | ⟨-, rests⟩
              · cases goesOn
              · exact rests
          | true =>
              rcases keepsUp.cases with ⟨-, steps, next, after, follow, runs⟩ | ⟨isDone, rests⟩
              · obtain ⟨enough, rest, final, ran, rests⟩ := ih follow ran
                exact ⟨enough + steps, rest, final, runs _ _ ran, rests⟩
              · have done : middle.thread.status = .done := isDone rfl
                have same : interpret? foreign depth fuel middle = some middle := by
                  unfold interpret?
                  rw [if_pos (by simp [done])]
                obtain rfl := Option.some.inj (same.symm.trans ran)
                exact rests

/-! ## Threads -/

/-- The script of a compiled thread stands at its marker, and nothing follows. -/
def World.AtMarker (world : World) (thread : Thread) : Prop :=
  ∃ frame marker block, thread.frames = [frame] ∧ frame.pc = some marker ∧
    (world.afters[thread.target]?).bind (·.block? marker) = some block ∧ block.next = none

/-- The compiled code of the right thread stands where the left thread does. -/
structure World.Alive (world : World) (left right : Thread) : Prop where
  leftAlive : left.status ≠ .done
  rightAlive : right.status ≠ .done
  uncompiled : left.compiled = none
  atMarker : world.AtMarker right
  follows : ∃ sequence before, right.compiled = some sequence ∧
    world.befores[left.target]? = some before ∧ Follows before world.shift left.frames sequence

/-- A thread and the compiled one that follows it: both go on, or both have ended. -/
structure World.Pair (world : World) (left right : Thread) : Prop where
  id : right.id = world.rename left.id
  target : right.target = left.target
  topBlock : right.topBlock = left.topBlock
  state : world.Alive left right ∨ (left = left.retire ∧ right = right.retire)

theorem Thread.wake_eq (thread : Thread) :
    thread.wake = { thread with status := if thread.status = .yielded then .running else thread.status } := by
  unfold Thread.wake Thread.withStatus
  split <;> rfl

theorem Thread.status_wake {thread : Thread} (alive : thread.status ≠ .done) :
    thread.wake.status = .running := by
  rw [Thread.wake_eq]
  cases isStatus : thread.status with
  | running => rfl
  | yielded => rfl
  | done => exact absurd isStatus alive

/-- Threads go on as a pair in the next tick. -/
theorem World.Pair.wake {thread other : Thread} (pair : world.Pair thread other) :
    world.Pair thread.wake other.wake := by
  obtain ⟨id, target, topBlock, state⟩ := pair
  have ended : ∀ {thread : Thread}, thread = thread.retire → thread.wake = thread.wake.retire := by
    intro thread isEnded
    rw [isEnded]
    rfl
  refine ⟨?_, ?_, ?_, ?_⟩
  · simpa only [Thread.wake_eq] using id
  · simpa only [Thread.wake_eq] using target
  · simpa only [Thread.wake_eq] using topBlock
  · rcases state with alive | ⟨leftEnded, rightEnded⟩
    · refine .inl ⟨?_, ?_, ?_, ?_, ?_⟩
      · simp [Thread.status_wake alive.leftAlive]
      · simp [Thread.status_wake alive.rightAlive]
      · simpa only [Thread.wake_eq] using alive.uncompiled
      · simpa only [Thread.wake_eq, World.AtMarker] using alive.atMarker
      · simpa only [Thread.wake_eq] using alive.follows
    · exact .inr ⟨ended leftEnded, ended rightEnded⟩

/-- Behind the marker a script ends. -/
theorem finish?_atMarker {limits : Limits} (running : right.thread.status = .running)
    (atMarker : ∃ frame marker block, right.thread.frames = [frame] ∧ frame.pc = some marker ∧
      right.host.block? right.thread.target marker = some block ∧ block.next = none)
    (enough : 1 ≤ limits.steps) : right.finish? foreign limits = some right.retire := by
  obtain ⟨frame, marker, block, isFrame, pc, found, last⟩ := atMarker
  obtain ⟨steps, isSteps⟩ := Nat.exists_eq_add_of_le' enough
  have moved : right.moveOn =
      ⟨right.host, { right.thread with frames := [{ frame with pc := none, state := .fresh }] }⟩ := by
    simp [Turn.moveOn, Thread.mapFrame, isFrame, pc, found, last]
  unfold Turn.finish?
  rw [isSteps, moved, interpret?, if_neg (by simp [running])]
  rfl

section

variable {other : Host} {follower : Thread} {limits : Limits} {fuel : Nat}

theorem take?_suspended (isCompiled : follower.compiled = some sequence)
    (ran : sequence.run? foreign fuel ⟨other, { follower with compiled := none }⟩ =
      some (.ok (.suspended next), after))
    (alive : after.thread.isDone = false) (enough : fuel ≤ limits.steps) :
    Turn.take? foreign limits ⟨other, follower⟩ =
      some ⟨after.host, { after.thread with compiled := some next }⟩ := by
  simp [Turn.take?, isCompiled, Sequence.run?_of_le enough ran, alive]

theorem take?_ended {value : Value} (isCompiled : follower.compiled = some sequence)
    (ran : sequence.run? foreign fuel ⟨other, { follower with compiled := none }⟩ =
      some (.ok (.ended value), after))
    (alive : after.thread.isDone = false) (enough : fuel ≤ limits.steps) :
    Turn.take? foreign limits ⟨other, follower⟩ = after.finish? foreign limits := by
  simp [Turn.take?, isCompiled, Sequence.run?_of_le enough ran, alive]

theorem take?_retired (isCompiled : follower.compiled = some sequence)
    (ran : sequence.run? foreign fuel ⟨other, { follower with compiled := none }⟩ =
      some (.ok .retired, after)) (enough : fuel ≤ limits.steps) :
    Turn.take? foreign limits ⟨other, follower⟩ = some after := by
  simp [Turn.take?, isCompiled, Sequence.run?_of_le enough ran]

end

/-- The turn of a compiled thread comes to the same as that of the thread that it follows. -/
theorem World.Alive.exists_take? (sound : world.Sound) {host other : Host} {thread follower : Thread}
    {limits : Limits} (hosts : world.Hosts host other) (pair : world.Pair thread follower)
    (alive : world.Alive thread follower) (leftRunning : thread.status = .running)
    (rightRunning : follower.status = .running)
    (taken : Turn.take? foreign limits ⟨host, thread⟩ = some last) :
    ∃ steps after, world.Hosts last.host after.host ∧ world.Pair last.thread after.thread ∧
      ∀ limits : Limits, steps ≤ limits.steps →
        Turn.take? foreign limits ⟨other, follower⟩ = some after := by
  obtain ⟨sequence, before, isCompiled, isTarget, follows⟩ := alive.follows
  have atMarker : ∃ frame marker block, follower.frames = [frame] ∧ frame.pc = some marker ∧
      other.block? follower.target marker = some block ∧ block.next = none := by
    obtain ⟨frame, marker, block, isFrame, pc, found, last⟩ := alive.atMarker
    exact ⟨frame, marker, block, isFrame, pc, (hosts.block?_right _ _).trans found, last⟩
  have follow : world.Matches ⟨host, thread⟩ sequence ⟨other, { follower with compiled := none }⟩ :=
    ⟨⟨hosts, pair.id, pair.target, pair.topBlock, alive.uncompiled, atMarker, rightRunning⟩, leftRunning,
      before, isTarget, follows⟩
  simp only [Turn.take?, alive.uncompiled] at taken
  obtain ⟨enough, rest, after, ran, rests⟩ := follow.exists_run? sound taken
  cases rests with
  | @suspended next _ yielded follow =>
      obtain ⟨turns, -, before, isTarget, follows⟩ := follow
      have awake : after.thread.isDone = false := by simp [Thread.isDone, turns.running]
      refine ⟨enough, ⟨after.host, { after.thread with compiled := some next }⟩, turns.hosts, ?_,
        fun limits isEnough => take?_suspended isCompiled ran awake isEnough⟩
      simp only [Thread.wake_eq] at turns isTarget follows
      obtain ⟨frame, marker, block, isFrame, pc, found, last⟩ := turns.atMarker
      refine ⟨turns.id, turns.target, turns.topBlock, .inl ⟨by simp [yielded], by simp [turns.running],
        turns.uncompiled, ?_, next, before, rfl, isTarget, follows⟩⟩
      exact ⟨frame, marker, block, isFrame, pc, (turns.hosts.block?_right _ _).symm.trans found, last⟩
  | ended ended =>
      rcases ended.rightEnded with ⟨rfl, isRetired⟩ | ⟨⟨value, rfl⟩, running, atMarker⟩
      · exact ⟨enough, after, ended.hosts,
          ⟨ended.id, ended.target, ended.topBlock, .inr ⟨ended.leftEnded, isRetired⟩⟩,
          fun limits isEnough => take?_retired isCompiled ran isEnough⟩
      · have awake : after.thread.isDone = false := by simp [Thread.isDone, running]
        refine ⟨enough + 1, after.retire, ended.hosts,
          ⟨ended.id, ended.target, ended.topBlock, .inr ⟨ended.leftEnded, rfl⟩⟩,
          fun limits isEnough => ?_⟩
        rw [take?_ended isCompiled ran awake (Nat.le_of_succ_le isEnough)]
        exact finish?_atMarker running atMarker (Nat.le_trans (Nat.le_add_left 1 enough) isEnough)

end

end StepCode
