import StepCode.Proofs.Host.Reachable
import StepCode.Proofs.Simulation.Reporters

/-!
# Lowered reporters

A tree of plain reporters has the same value for the block interpreter as the expression that it is
lowered to has for compiled code, whatever the host and the two threads are.
-/

namespace StepCode

open Lowering (Place)

/-- A thread of the block interpreter and one of compiled code, both in the body of `place`, which the
interpreter has entered with the parameters that compiled code has. -/
structure Meet (place : Place) (params : Table Value) (host : Host) (left right : Thread) : Prop where
  sameTarget : right.target = left.target
  isTarget : (host.targets[left.target]?).map LiveTarget.data = some place.target
  bound : ∀ name, left.param? name =
    if name ∈ place.params then some ((params.get? name).getD .empty) else none
  /-- Compiled code runs in threads that have their turn. -/
  awake : right.status ≠ .yielded

theorem Meet.scene {place : Place} {params : Table Value} {host : Host} {left right : Thread}
    (meet : Meet place params host left right) : Scene place params ⟨host, left⟩ ⟨host, right⟩ where
  sameTarget := meet.sameTarget
  hosts := .refl host
  blocks := by
    intro id
    obtain ⟨live, found, isData⟩ := Option.map_eq_some_iff.mp meet.isTarget
    simp [Host.block?, found, isData]
  bound := fun name isParam => ⟨_, (meet.bound name).trans (if_pos isParam), .same _⟩
  unbound := fun name noParam => (meet.bound name).trans (if_neg noParam)
  awake := meet.awake

/-- A tree of plain reporters that can be lowered is read by the interpreter and evaluated by compiled
code, with alike values and without any change; so is a slot with such a tree or with a literal. -/
theorem lowered_reporters_keep_their_values {foreign : Foreign} {routine : Routine} {place : Place}
    {params : Table Value} {host : Host} {left right : Thread}
    (meet : Meet place params host left right) (depth : Nat) :
    (∀ id block expr, place.target.PlainTree block →
      Lowering.reported place depth block = .ok expr → routine.Supplies expr.helperCalls →
      Agree foreign routine params ⟨host, left⟩ ⟨host, right⟩ depth
        (fun more => readReporter foreign more id block) expr) ∧
    ∀ block slot expr, block.SlotHolds place.target place.target.PlainTree slot →
      Lowering.input place (Lowering.reported place depth) block slot = .ok expr →
      routine.Supplies expr.helperCalls →
      Agree foreign routine params ⟨host, left⟩ ⟨host, right⟩ depth
        (fun more => readSlot foreign more block slot) expr := by
  have reporters : ReportersAgree foreign routine params ⟨host, left⟩ ⟨host, right⟩
      place.target.PlainTree depth (Lowering.reported place depth) :=
    reported_agrees meet.scene (Target.PlainTree.goesDown place.target) depth
  refine ⟨reporters, fun block slot expr holds lowered supplied => ?_⟩
  exact input_agrees meet.scene reporters holds lowered supplied

/-- Whether `rue` is in `x` joined with whether the parameter `p` is above ten. -/
def weighing : Block := { Block.bare "operator_contains" with
  inputs := ⟨[("STRING1", .array [.int 3, .text "j", .null]),
    ("STRING2", .array [.int 1, .array [.int 10, .text "rue"]])]⟩ }

def weighingTarget : Target where
  isStage := true
  name := "Stage"
  vars := ⟨[("v", .array [.text "x", .text ""])]⟩
  blocks := ⟨[
    ("c", .block weighing),
    ("j", .block { Block.bare "operator_join" with
      parent := some "c"
      inputs := ⟨[("STRING1", .array [.int 1, .array [.int 12, .text "x", .text "v"]]),
        ("STRING2", .array [.int 3, .text "g", .null])]⟩ }),
    ("g", .block { Block.bare "operator_gt" with
      parent := some "j"
      inputs := ⟨[("OPERAND1", .array [.int 3, .text "p", .null]),
        ("OPERAND2", .array [.int 1, .array [.int 10, .text "10"]])]⟩ }),
    ("p", .block { Block.bare "argument_reporter_string_number" with
      parent := some "g"
      fields := ⟨[("VALUE", .array [.text "p", .null])]⟩ })]⟩
  comments := .empty
  extra := .empty

def weighingPlace : Place := ⟨weighingTarget, ["p"], false⟩

def weighingParams : Table Value := .ofList [("p", .text "12")]

def weighingHost : Host := Host.start ⟨[weighingTarget], [], .empty, .empty⟩

/-- The interpreter is in a procedure with the parameter. -/
def weighingThread : Thread :=
  ⟨0, 0, "d", .running, [⟨none, false, false, some weighingParams, .fresh⟩], none⟩

def weighingExpr : Expr :=
  .report "operator_contains" [
    ("STRING1", .builtin .join [.var "x", .helper "greater_than" [.param "p", .text "10"]]),
    ("STRING2", .text "rue")]

theorem weighing_meets :
    Meet weighingPlace weighingParams weighingHost weighingThread (.start 0 0 "d") where
  sameTarget := rfl
  isTarget := rfl
  bound := by
    intro name
    by_cases isParam : name = "p"
    · subst isParam
      rfl
    · have absent : weighingParams.get? name = none :=
        Table.get?_insertAll_of_notMem (by simp [isParam])
      simp [weighingPlace, isParam, Thread.param?, weighingThread, absent]
  awake := by decide

theorem weighing_keeps_its_value :
    weighingTarget.PlainTree weighing ∧
      Lowering.reported weighingPlace 4 weighing = .ok weighingExpr ∧
      Yields (readReporter idleForeign 4 "c" weighing) ⟨weighingHost, weighingThread⟩ (.bool true) ∧
      Yields (eval idleForeign .helped weighingParams weighingExpr)
        ⟨weighingHost, .start 0 0 "d"⟩ (.bool true) := by
  have isTree : weighingTarget.PlainTree weighing :=
    .of_isPlainTree (show weighingTarget.isPlainTree 4 weighing = true by decide +kernel)
  have lowered : Lowering.reported weighingPlace 4 weighing = .ok weighingExpr := rfl
  have agree : Agree idleForeign .helped weighingParams ⟨weighingHost, weighingThread⟩
      ⟨weighingHost, .start 0 0 "d"⟩ 4 (fun more => readReporter idleForeign more "c" weighing)
      weighingExpr :=
    (lowered_reporters_keep_their_values weighing_meets 4).1 "c" weighing weighingExpr isTree lowered
      (Routine.supplies_helped _)
  obtain ⟨value, other, alike, reads, yields⟩ := agree
  have isTrue : ((eval idleForeign .helped weighingParams weighingExpr).run.run
      ⟨weighingHost, .start 0 0 "d"⟩).1.toOption = some (.bool true) := by decide +kernel
  rw [yields] at isTrue
  obtain rfl := Option.some.inj isTrue
  cases alike
  exact ⟨isTree, lowered, (reads 4).2 le_rfl, yields⟩

end StepCode
