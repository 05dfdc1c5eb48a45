import Mathlib.Data.List.Nodup
import Mathlib.Data.List.Pairwise
import StepCode.Host.Tick
import StepCode.Proofs.Host.Effects
import StepCode.Proofs.Sequencing

/-!
# Threads in order

The list of threads is in order if ids increase along it and no two threads run the same script.
Starting a script keeps that order, and so does joining what is left of a tick with what it started.
-/

namespace StepCode

namespace Thread

theorem sameScript_iff {left right : Thread} :
    left.sameScript right = true ↔ left.target = right.target ∧ left.topBlock = right.topBlock := by
  simp [sameScript]

theorem sameScript_comm (left right : Thread) : left.sameScript right = right.sameScript left := by
  rw [Bool.eq_iff_iff, sameScript_iff, sameScript_iff, eq_comm, @eq_comm _ left.topBlock]

/-- The target of a thread and the hat of its script. -/
def script (thread : Thread) : Nat × String := (thread.target, thread.topBlock)

/-- Running different scripts goes both ways. -/
instance : Std.Symm fun left right : Thread => left.sameScript right = false :=
  ⟨fun left right apart => left.sameScript_comm right ▸ apart⟩

/-! ## One thread -/

/-- A thread is done exactly if its stack is empty, and it has no compiled code then. -/
structure Consistent (thread : Thread) : Prop where
  done_iff : thread.isDone = true ↔ thread.frames = []
  detached : thread.isDone = true → thread.compiled = none

theorem consistent_of_going {thread : Thread} (going : thread.isDone = false)
    (frames : thread.frames ≠ []) : thread.Consistent :=
  ⟨by simp [going, frames], by simp [going]⟩

theorem consistent_retire (thread : Thread) : thread.retire.Consistent :=
  ⟨⟨fun _ => rfl, fun _ => rfl⟩, fun _ => rfl⟩

theorem consistent_start (id target : Nat) (topBlock : String) :
    (start id target topBlock).Consistent :=
  consistent_of_going rfl (List.cons_ne_nil _ _)

theorem Consistent.frames_ne_nil {thread : Thread} (consistent : thread.Consistent)
    (going : thread.isDone = false) : thread.frames ≠ [] := by
  rw [← Bool.not_eq_true, consistent.done_iff] at going
  exact going

theorem Consistent.wake {thread : Thread} (consistent : thread.Consistent) :
    thread.wake.Consistent := by
  unfold Thread.wake
  split
  next yielded =>
    have going : thread.isDone = false := by simp [isDone, yielded]
    exact consistent_of_going rfl (consistent.frames_ne_nil going)
  next => exact consistent

/-- The same thread at a later moment.  What is done stays done. -/
structure Becomes (before after : Thread) : Prop where
  id : after.id = before.id
  target : after.target = before.target
  topBlock : after.topBlock = before.topBlock
  done : before.isDone = true → after.isDone = true

namespace Becomes

variable {first second third : Thread}

theorem refl (thread : Thread) : thread.Becomes thread := ⟨rfl, rfl, rfl, fun done => done⟩

theorem trans (one : first.Becomes second) (other : second.Becomes third) : first.Becomes third :=
  ⟨other.id.trans one.id, other.target.trans one.target, other.topBlock.trans one.topBlock,
    fun done => other.done (one.done done)⟩

theorem retire (thread : Thread) : thread.Becomes thread.retire := ⟨rfl, rfl, rfl, fun _ => rfl⟩

theorem wake (thread : Thread) : thread.Becomes thread.wake := by
  unfold Thread.wake
  split
  next yielded => exact ⟨rfl, rfl, rfl, fun done => by simp [isDone, yielded] at done⟩
  next => exact refl thread

theorem sameScript {left right left' right' : Thread} (one : left.Becomes left')
    (other : right.Becomes right') : left'.sameScript right' = left.sameScript right := by
  unfold Thread.sameScript
  rw [one.target, one.topBlock, other.target, other.topBlock]

theorem script (becomes : first.Becomes second) : second.script = first.script :=
  Prod.ext becomes.target becomes.topBlock

theorem hits (becomes : first.Becomes second) (stop : StopRequest) :
    StopRequest.hits second stop = StopRequest.hits first stop := by
  cases stop with
  | all => rfl
  | others target keep =>
      unfold StopRequest.hits
      dsimp only
      rw [becomes.target, becomes.id]

end Becomes

/-- A thread that has had no turn: it is as it was started, or it was ended before its first turn. -/
def Unstepped (thread : Thread) : Prop :=
  thread = start thread.id thread.target thread.topBlock ∨
    thread = (start thread.id thread.target thread.topBlock).retire

theorem Unstepped.consistent {thread : Thread} (unstepped : thread.Unstepped) :
    thread.Consistent := by
  rcases unstepped with isStart | isRetired
  · rw [isStart]
    exact consistent_start _ _ _
  · rw [isRetired]
    exact consistent_retire _

end Thread

/-! ## The list of threads -/

/-- Threads in order: their ids increase and lie between two bounds, and no two run the same
script. -/
structure Lined (low high : Nat) (threads : List Thread) : Prop where
  ids : threads.Pairwise (·.id < ·.id)
  range : ∀ thread ∈ threads, low ≤ thread.id ∧ thread.id < high
  scripts : threads.Pairwise fun left right => left.sameScript right = false

namespace Lined

variable {low middle high : Nat} {threads others : List Thread}

theorem nil : Lined low high [] := ⟨.nil, by simp, .nil⟩

theorem of_becomes (lined : Lined low high threads)
    (becomes : List.Forall₂ Thread.Becomes threads others) : Lined low high others := by
  obtain ⟨ids, range, scripts⟩ := lined
  induction becomes with
  | nil => exact nil
  | @cons thread other _ _ here later ih =>
      rw [List.pairwise_cons] at ids scripts
      obtain ⟨inRange, range⟩ := List.forall_mem_cons.mp range
      have rest := ih ids.2 range scripts.2
      refine ⟨List.pairwise_cons.mpr ⟨?_, rest.ids⟩, List.forall_mem_cons.mpr ⟨?_, rest.range⟩,
        List.pairwise_cons.mpr ⟨?_, rest.scripts⟩⟩
      · intro last mem
        obtain ⟨earlier, isEarlier, becomes⟩ := exists_of_mem_right later mem
        rw [here.id, becomes.id]
        exact ids.1 earlier isEarlier
      · rw [here.id]
        exact inRange
      · intro last mem
        obtain ⟨earlier, isEarlier, becomes⟩ := exists_of_mem_right later mem
        rw [here.sameScript becomes]
        exact scripts.1 earlier isEarlier

theorem filter (lined : Lined low high threads) (keep : Thread → Bool) :
    Lined low high (threads.filter keep) where
  ids := lined.ids.filter keep
  range := fun thread mem => lined.range thread (List.mem_of_mem_filter mem)
  scripts := lined.scripts.filter keep

/-- Two lists in order, one behind the other, if no script is in both. -/
theorem append (older : Lined low middle threads) (newer : Lined middle high others)
    (le : low ≤ middle) (le' : middle ≤ high)
    (apart : ∀ thread ∈ threads, ∀ other ∈ others, thread.sameScript other = false) :
    Lined low high (threads ++ others) where
  ids := by
    refine List.pairwise_append.mpr ⟨older.ids, newer.ids, fun thread mem other mem' => ?_⟩
    have := older.range thread mem
    have := newer.range other mem'
    omega
  range := by
    intro thread mem
    rcases List.mem_append.mp mem with mem | mem
    · have := older.range thread mem
      omega
    · have := newer.range thread mem
      omega
  scripts := List.pairwise_append.mpr ⟨older.scripts, newer.scripts, apart⟩

/-- Threads with the same id are the same. -/
theorem eq_of_id_eq (lined : Lined low high threads) {left right : Thread} (mem : left ∈ threads)
    (mem' : right ∈ threads) (same : left.id = right.id) : left = right := by
  have nodup : (threads.map Thread.id).Nodup :=
    (List.pairwise_map.mpr lined.ids).imp fun less => Nat.ne_of_lt less
  exact List.inj_on_of_nodup_map nodup mem mem' same

/-- Threads with the same script are the same. -/
theorem eq_of_sameScript (lined : Lined low high threads) {left right : Thread}
    (mem : left ∈ threads) (mem' : right ∈ threads) (same : left.sameScript right = true) :
    left = right := by
  by_contra other
  have apart := lined.scripts.forall mem mem' other
  rw [same] at apart
  cases apart

theorem startThread {host : Host} (lined : Lined low host.nextThread host.threads)
    (le : low ≤ host.nextThread) (target : Nat) (topBlock : String) :
    Lined low (host.nextThread + 1) (host.startThread target topBlock).threads := by
  have alone : Lined host.nextThread (host.nextThread + 1)
      [Thread.start host.nextThread target topBlock] :=
    ⟨List.pairwise_singleton _ _, by simp [Thread.start], List.pairwise_singleton _ _⟩
  refine (lined.filter _).append alone le (Nat.le_succ _) fun thread mem other isOther => ?_
  obtain rfl := List.mem_singleton.mp isOther
  simpa using (List.mem_filter.mp mem).2

/-- What a tick leaves is in order if the threads at its beginning and those it started are. -/
theorem remaining {stepping started : List Thread} (older : Lined low middle stepping)
    (newer : Lined middle high started) (le : low ≤ middle) (le' : middle ≤ high) :
    Lined low high (Host.remaining stepping started) := by
  refine (older.filter _).append newer le le' fun thread mem other isOther => ?_
  have kept := (List.mem_filter.mp mem).2
  rw [Bool.and_eq_true, Bool.not_eq_true', Bool.not_eq_true', List.any_eq_false] at kept
  rw [thread.sameScript_comm, ← Bool.not_eq_true]
  exact kept.2 other isOther

end Lined

namespace Host

/-- The list of threads between two ticks. -/
structure Orderly (host : Host) : Prop extends Lined 0 host.nextThread host.threads where
  consistent : ∀ thread ∈ host.threads, thread.Consistent

namespace Starts

variable {host after : Host}

theorem lined (starts : host.Starts after) {low : Nat} (le : low ≤ host.nextThread)
    (lined : Lined low host.nextThread host.threads) :
    low ≤ after.nextThread ∧ Lined low after.nextThread after.threads := by
  induction starts with
  | none threads nextThread =>
      rw [threads, nextThread]
      exact ⟨le, lined⟩
  | start target topBlock _ threads nextThread ih =>
      rw [threads, nextThread]
      exact ⟨by omega, ih.2.startThread ih.1 target topBlock⟩

theorem mem (starts : host.Starts after) {thread : Thread} (mem : thread ∈ after.threads) :
    thread ∈ host.threads ∨ thread = .start thread.id thread.target thread.topBlock := by
  induction starts with
  | none threads nextThread => exact .inl (threads ▸ mem)
  | start target topBlock _ threads nextThread ih =>
      rw [threads] at mem
      rcases List.mem_append.mp mem with mem | mem
      · exact ih (List.mem_of_mem_filter mem)
      · obtain rfl := List.mem_singleton.mp mem
        exact .inr rfl

end Starts

end Host

end StepCode
