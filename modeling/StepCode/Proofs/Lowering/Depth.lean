import StepCode.Compiled.OfTarget
import StepCode.Proofs.Sequencing

/-!
# Lowering and depth

Lowering is described with a bound on the depth to which blocks are nested in one another.  A result
that is reached within some depth is the result within any greater depth, so the bound decides only
whether there is a result.  Whether there is one depends on the parts of a block alone: the slots and
substacks that lowering it reads, in order, up to the first that has no code.
-/

namespace StepCode.Lowering

variable {α β : Type}

/-! ## More depth -/

/-- What `earlier` has come to, `later` has come to as well. -/
def Settles (earlier later : Lowered α) : Prop :=
  earlier ≠ .error .endless → later = earlier

namespace Settles

theorem refl (outcome : Lowered α) : Settles outcome outcome := fun _ => rfl

theorem endless (outcome : Lowered α) : Settles (.error .endless) outcome :=
  fun settled => absurd rfl settled

theorem trans {first second third : Lowered α} (before : Settles first second)
    (behind : Settles second third) : Settles first third := by
  intro settled
  have same := before settled
  rw [← same] at settled
  rw [behind settled, same]

theorem bind {earlier later : Lowered α} {next next' : α → Lowered β}
    (here : Settles earlier later) (rest : ∀ value, Settles (next value) (next' value)) :
    Settles (earlier >>= next) (later >>= next') := by
  intro settled
  cases earlier with
  | error stop =>
      have stopped : (.error stop : Lowered α) ≠ .error .endless := by
        rintro ⟨⟩
        exact settled rfl
      rw [here stopped]
      rfl
  | ok value =>
      rw [here (by simp)]
      exact rest value settled

theorem mapM {f g : α → Lowered β} {items : List α}
    (each : ∀ item, Settles (f item) (g item)) : Settles (items.mapM f) (items.mapM g) := by
  induction items with
  | nil => exact refl _
  | cons item rest ih =>
      simp only [List.mapM_cons]
      exact bind (each item) fun _ => bind ih fun _ => refl _

end Settles

theorem arguments_settles {slot slot' : String → Lowered Expr} (block : Block)
    (slots : ∀ name, Settles (slot name) (slot' name)) :
    Settles (arguments slot block) (arguments slot' block) :=
  .bind (.mapM fun name => .bind (slots name) fun _ => .refl _) fun _ => .refl _

theorem reporter_settles (place : Place) {slot slot' : String → Lowered Expr} (block : Block)
    (slots : ∀ name, Settles (slot name) (slot' name)) :
    Settles (reporter place slot block) (reporter place slot' block) := by
  unfold reporter
  split
  case h_5 => exact .bind (.mapM slots) fun _ => .refl _
  case h_6 => exact .bind (.mapM slots) fun _ => .refl _
  case h_7 => exact .bind (arguments_settles block slots) fun _ => .refl _
  all_goals exact .refl _

theorem input_settles (place : Place) {lower lower' : Block → Lowered Expr} (block : Block)
    (name : String) (inner : ∀ block, Settles (lower block) (lower' block)) :
    Settles (input place lower block name) (input place lower' block name) := by
  unfold input
  split
  case h_4 => exact .bind (.refl _) inner
  all_goals exact .refl _

theorem reported_settles (place : Place) (depth : Nat) (block : Block) :
    Settles (reported place depth block) (reported place (depth + 1) block) := by
  induction depth generalizing block with
  | zero => exact .endless _
  | succ depth ih =>
      exact reporter_settles place block fun name => input_settles place block name ih

theorem blockCall_settles {slot slot' : String → Lowered Expr} (block : Block)
    (slots : ∀ name, Settles (slot name) (slot' name)) :
    Settles (blockCall slot block) (blockCall slot' block) := by
  unfold blockCall
  split
  · exact .refl _
  · exact .bind (arguments_settles block slots) fun _ => .refl _

theorem call_settles (place : Place) {slot slot' : String → Lowered Expr} (block : Block)
    (slots : ∀ name, Settles (slot name) (slot' name)) :
    Settles (call place slot block) (call place slot' block) := by
  unfold call
  split
  · exact .refl _
  · split
    · exact .refl _
    · exact .bind (.mapM slots) fun _ => .refl _

theorem statement_settles (place : Place) {slot slot' : String → Lowered Expr}
    {stack stack' : String → Lowered (List Stmt)} (block : Block)
    (slots : ∀ name, Settles (slot name) (slot' name))
    (substacks : ∀ name, Settles (stack name) (stack' name)) :
    Settles (statement place slot stack block) (statement place slot' stack' block) := by
  have iteration : Settles (do return (← stack "SUBSTACK") ++ [place.pause])
      (do return (← stack' "SUBSTACK") ++ [place.pause]) := .bind (substacks _) fun _ => .refl _
  unfold statement
  split
  · exact .bind (.refl _) fun _ => .bind (slots _) fun _ => .refl _
  · exact .bind (.refl _) fun _ => .bind (slots _) fun _ => .refl _
  · exact .bind (slots _) fun _ => .bind iteration fun _ => .refl _
  · exact .bind iteration fun _ => .refl _
  · exact .bind (slots _) fun _ => .bind iteration fun _ => .refl _
  · exact .bind (slots _) fun _ => .bind iteration fun _ => .refl _
  · exact .bind (slots _) fun _ => .bind (substacks _) fun _ => .bind (substacks _) fun _ => .refl _
  · split
    · exact .refl _
    · exact blockCall_settles block slots
  · exact call_settles place block slots
  · exact blockCall_settles block slots

theorem follow_settles (place : Place) {lower lower' : Block → Lowered Stmt}
    (inner : ∀ block, Settles (lower block) (lower' block)) (room : Nat) (first : Option String) :
    Settles (follow place lower room first) (follow place lower' room first) := by
  induction room generalizing first with
  | zero => cases first <;> exact .refl _
  | succ room ih =>
      cases first with
      | none => exact .refl _
      | some id =>
          exact .bind (.refl _) fun block => .bind (inner block) fun _ =>
            .bind (ih block.next) fun _ => .refl _

theorem nested_settles (place : Place) (depth : Nat) (block : Block) :
    Settles (nested place depth block) (nested place (depth + 1) block) := by
  induction depth generalizing block with
  | zero => exact .endless _
  | succ depth ih =>
      exact statement_settles place block
        (fun name => input_settles place block name (reported_settles place depth))
        (fun name => follow_settles place ih _ _)

theorem chainWithin_settles (place : Place) (depth : Nat) (first : Option String) :
    Settles (chainWithin place depth first) (chainWithin place (depth + 1) first) :=
  follow_settles place (nested_settles place depth) _ _

/-- A family that settles from each depth to the next settles from each depth to any greater one. -/
theorem settles_of_le {outcome : Nat → Lowered α}
    (step : ∀ depth, Settles (outcome depth) (outcome (depth + 1))) {depth greater : Nat}
    (le : depth ≤ greater) : Settles (outcome depth) (outcome greater) := by
  induction le with
  | refl => exact .refl _
  | step _ ih => exact ih.trans (step _)

/-- Two depths that have a result have the same one. -/
theorem eq_of_settles {outcome : Nat → Lowered α}
    (step : ∀ depth, Settles (outcome depth) (outcome (depth + 1))) {one other : Nat} {value : α}
    (found : outcome one = .ok value) (settled : outcome other ≠ .error .endless) :
    outcome other = .ok value := by
  have fromOne := settles_of_le step (Nat.le_max_left one other) (by simp [found])
  have fromOther := settles_of_le step (Nat.le_max_right one other) settled
  rw [← fromOther, fromOne, found]

end StepCode.Lowering
