import Mathlib.Logic.Function.Iterate
import StepCode.Proofs.Routine.Meaning
import StepCode.Proofs.Routine.Running

/-!
# Driving compiled code

Compiled code is resumed again and again, whatever happens to the host and the thread in between.  Its
steps are followed with the story of what they do, and compared with a telling.
-/

namespace StepCode

/-! ## The story of a run -/

/-- The statement that the innermost call runs next. -/
def Sequence.instr? (sequence : Sequence) : Option Instr := do
  let call ← sequence.calls.head?
  let frame ← call.frames.head?
  call.routine.instr? frame.body frame.index

/-- What the statement has done if it was run with `depth` calls open and `step` came of it. -/
def Instr.deed? (depth : Nat) (step : Step) : Instr → Option Deed
  | .set var _ => some (.write var)
  | .change var _ => some (.write var)
  | .call signature _ =>
      match step with
      | .more ⟨_, callee :: callers⟩ =>
          if depth ≤ callers.length then some (.entry signature callee.params callee.warp) else none
      | _ => none
  | _ => none

/-- What a step that succeeded has done. -/
def Sequence.deed? (sequence : Sequence) (step : Step) : Option Deed :=
  match sequence.pending with
  | some op => some (.block op.opcode op.args op.state)
  | none => sequence.instr?.bind (Instr.deed? sequence.calls.length step)

/-- How compiled code is over. -/
inductive Ending where
  | ended (value : Value)
  | failed (error : RunError)
  | retired

/-- Something was done, or nothing. -/
def Story.addIf (story : Story) : Option Deed → Story
  | some deed => story.add deed
  | none => story

@[simp] theorem Story.addIf_none (story : Story) : story.addIf none = story := rfl

@[simp] theorem Story.addIf_some (story : Story) (deed : Deed) :
    story.addIf (some deed) = story.add deed := rfl

@[simp] theorem Story.addIf_turn (story : Story) (deed : Option Deed) :
    (story.addIf deed).turn = story.turn := by
  cases deed <;> rfl

theorem Story.deeds_addIf (story : Story) (deed : Option Deed) :
    story.deeds <:+ (story.addIf deed).deeds := by
  cases deed with
  | none => exact List.suffix_refl _
  | some deed => exact List.suffix_cons _ _

/-- Compiled code under way, or over. -/
inductive Drive where
  | running (sequence : Sequence) (story : Story)
  | finished (ending : Ending) (story : Story)

namespace Drive

def story : Drive → Story
  | .running _ story => story
  | .finished _ story => story

/-- The story after a step of `sequence` that succeeded. -/
def tell (sequence : Sequence) (step : Step) (story : Story) : Story :=
  story.addIf (sequence.deed? step)

/-- What becomes of code that came to rest.  If it is suspended, it is resumed. -/
def rested (outside : Story → Turn) (story : Story) : Except RunError Rest → Drive
  | .error error => .finished (.failed error) story
  | .ok (.suspended later) => .running later (story.suspend outside)
  | .ok (.ended value) => .finished (.ended value) story
  | .ok .retired => .finished .retired story

/-- What becomes of the outcome of a step. -/
def settle (outside : Story → Turn) (sequence : Sequence) (deeds : List (Deed × Turn)) :
    Except RunError Step × Turn → Drive
  | (.error error, turn) => rested outside ⟨turn, deeds⟩ (.error error)
  | (.ok (.more later), turn) => .running later (tell sequence (.more later) ⟨turn, deeds⟩)
  | (.ok (.rest rest), turn) => rested outside (tell sequence (.rest rest) ⟨turn, deeds⟩) (.ok rest)

/-- One step. -/
def next (foreign : Foreign) (outside : Story → Turn) : Drive → Drive
  | .running sequence story =>
      settle outside sequence story.deeds ((sequence.step foreign).run.run story.turn)
  | .finished ending story => .finished ending story

/-- The code after this many steps. -/
def after (foreign : Foreign) (outside : Story → Turn) (steps : Nat) : Drive → Drive :=
  (next foreign outside)^[steps]

end Drive

/-! ## Following a telling -/

namespace Telling

variable {α β : Type} {action : Act α} {rest : α → Telling β} {story : Story} {turn : Turn}

theorem run_act {value : α} (ran : action.run.run story.turn = (.ok value, turn)) :
    (act action >>= rest).run.run story = (rest value).run.run { story with turn := turn } := by
  have isAct : (act action).run.run story = act action story := rfl
  rw [ExceptT.run_bind, StateT.run_bind, isAct, act, ran]
  rfl

theorem run_act_error {error : RunError} (ran : action.run.run story.turn = (.error error, turn)) :
    (act action >>= rest).run.run story = (.error (.failed error), { story with turn := turn }) := by
  have isAct : (act action).run.run story = act action story := rfl
  rw [ExceptT.run_bind, StateT.run_bind, isAct, act, ran]
  rfl

end Telling

namespace Drive

variable {foreign : Foreign} {outside : Story → Turn} {α β : Type} {fuel : Nat} {start middle : Drive}
  {onward : α → Story → Drive} {leaves : Value → Story → Drive}

/-- From `start`, the code does what is told: it comes to `onward` at the end of what is told, to
`leaves` where a value is returned, and fails or finds its thread ended where this is told.  If the
telling breaks off for lack of fuel, the code comes there as well, and takes at least so many steps. -/
def Follows (foreign : Foreign) (outside : Story → Turn) (fuel : Nat) (start : Drive)
    (onward : α → Story → Drive) (leaves : Value → Story → Drive) : Except Halt α × Story → Prop
  | (.ok value, story) => ∃ steps, start.after foreign outside steps = onward value story
  | (.error (.returned value), story) => ∃ steps, start.after foreign outside steps = leaves value story
  | (.error (.failed error), story) =>
      ∃ steps, start.after foreign outside steps = .finished (.failed error) story
  | (.error .retired, story) => ∃ steps, start.after foreign outside steps = .finished .retired story
  | (.error .exhausted, story) =>
      ∃ steps, fuel ≤ steps ∧ ∃ sequence, start.after foreign outside steps = .running sequence story

theorem after_add (steps more : Nat) (start : Drive) :
    start.after foreign outside (steps + more) =
      (start.after foreign outside steps).after foreign outside more := by
  rw [after, Nat.add_comm, Function.iterate_add_apply]
  rfl

namespace Follows

/-- Steps before a telling begins. -/
theorem prepend {steps more : Nat} {told : Except Halt α × Story}
    (reached : start.after foreign outside steps = middle) (enough : fuel ≤ steps + more)
    (follows : Follows foreign outside more middle onward leaves told) :
    Follows foreign outside fuel start onward leaves told := by
  have onto : ∀ {place later}, middle.after foreign outside later = place →
      start.after foreign outside (steps + later) = place := by
    rintro place later rfl
    rw [after_add, reached]
  obtain ⟨outcome, story⟩ := told
  cases outcome with
  | ok value =>
      obtain ⟨later, comes⟩ := follows
      exact ⟨_, onto comes⟩
  | error halt =>
      cases halt with
      | returned value =>
          obtain ⟨later, comes⟩ := follows
          exact ⟨_, onto comes⟩
      | failed error =>
          obtain ⟨later, comes⟩ := follows
          exact ⟨_, onto comes⟩
      | retired =>
          obtain ⟨later, comes⟩ := follows
          exact ⟨_, onto comes⟩
      | exhausted =>
          obtain ⟨later, long, sequence, comes⟩ := follows
          exact ⟨_, by omega, sequence, onto comes⟩

theorem of_eq {told : Except Halt α × Story} (isStart : start = middle)
    (follows : Follows foreign outside fuel middle onward leaves told) :
    Follows foreign outside fuel start onward leaves told :=
  isStart ▸ follows

theorem here {value : α} {story : Story} (isStart : start = onward value story) :
    Follows foreign outside fuel start onward leaves (.ok value, story) :=
  ⟨0, isStart⟩

theorem bind {telling : Telling α} {rest : α → Telling β} {story : Story}
    {farther : β → Story → Drive}
    (first : Follows foreign outside fuel start onward leaves (telling.run.run story))
    (later : ∀ value story, Follows foreign outside fuel (onward value story) farther leaves
      ((rest value).run.run story)) :
    Follows foreign outside fuel start farther leaves ((telling >>= rest).run.run story) := by
  rw [ExceptT.run_bind, StateT.run_bind]
  generalize telling.run.run story = told at first
  obtain ⟨outcome, story⟩ := told
  cases outcome with
  | ok value =>
      obtain ⟨steps, comes⟩ := first
      exact (later value story).prepend comes (by omega)
  | error halt => cases halt <;> exact first

/-- Steps behind the end of a telling. -/
theorem append {told : Except Halt α × Story} {farther : α → Story → Drive}
    (follows : Follows foreign outside fuel start onward leaves told)
    (later : ∀ value story, ∃ steps,
      (onward value story).after foreign outside steps = farther value story) :
    Follows foreign outside fuel start farther leaves told := by
  obtain ⟨outcome, story⟩ := told
  cases outcome with
  | ok value =>
      obtain ⟨steps, comes⟩ := follows
      obtain ⟨more, onto⟩ := later value story
      exact ⟨steps + more, by rw [after_add, comes, onto]⟩
  | error halt => cases halt <;> exact follows

/-- The outcome of a step is settled once the computation that it begins with is done. -/
theorem bind_act {action : Act α} {finish : α → Act Step} {rest : α → Telling β} {story : Story}
    {sequence : Sequence} {onward : β → Story → Drive}
    (later : ∀ value turn, Follows foreign outside fuel
      (settle outside sequence story.deeds ((finish value).run.run turn)) onward leaves
      ((rest value).run.run { story with turn := turn })) :
    Follows foreign outside fuel
      (settle outside sequence story.deeds ((action >>= finish).run.run story.turn)) onward leaves
      ((Telling.act action >>= rest).run.run story) := by
  rcases ran : action.run.run story.turn with ⟨outcome, turn⟩
  rw [ExceptT.run_bind, StateT.run_bind, ran]
  cases outcome with
  | ok value =>
      rw [Telling.run_act ran]
      exact later value turn
  | error error =>
      rw [Telling.run_act_error ran]
      exact ⟨0, rfl⟩

/-- The same for a step whose outcome is what the turn makes of an answer. -/
theorem bind_answer {action : Act α} {answer : α → Act Response} {rest : α → Telling β} {story : Story}
    {sequence : Sequence} {onward : β → Story → Drive}
    (later : ∀ value turn, Follows foreign outside fuel
      (settle outside sequence story.deeds ((answer value >>= Sequence.heed).run.run turn)) onward leaves
      ((rest value).run.run { story with turn := turn })) :
    Follows foreign outside fuel
      (settle outside sequence story.deeds
        (((action >>= answer) >>= Sequence.heed).run.run story.turn)) onward leaves
      ((Telling.act action >>= rest).run.run story) := by
  rw [bind_assoc]
  exact bind_act later

/-- A step. -/
theorem step {sequence : Sequence} {story : Story} {told : Except Halt α × Story}
    (follows : Follows foreign outside fuel
      (settle outside sequence story.deeds ((sequence.step foreign).run.run story.turn)) onward leaves
      told) :
    Follows foreign outside (fuel + 1) (.running sequence story) onward leaves told := by
  have reached : (running sequence story).after foreign outside 1 =
      settle outside sequence story.deeds ((sequence.step foreign).run.run story.turn) := rfl
  exact follows.prepend reached (by omega)

theorem mono {told : Except Halt α × Story} {more : Nat} (enough : fuel ≤ more)
    (follows : Follows foreign outside more start onward leaves told) :
    Follows foreign outside fuel start onward leaves told := by
  have reached : start.after foreign outside 0 = start := rfl
  exact follows.prepend reached (by omega)

end Follows

end Drive

end StepCode
