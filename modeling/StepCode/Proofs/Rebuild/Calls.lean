import StepCode.Proofs.Rebuild.Definitions
import StepCode.Proofs.Routine.Resolving
import StepCode.Rebuild.FreshId

/-!
# Calls in rebuilt programs

Compiled code calls procedures by signature, and a call is answered with the step code behind the
definition.  A definition whose own unit was refused has none there: calls of it do nothing.
-/

namespace StepCode

open Lowering (Place)

/-- The signature that a call is lowered to names the procedure that the block names. -/
theorem proccodeOf_call {place : Place} {slot : String → Lowering.Lowered Expr} {block : Block}
    {proccode signature : String} {args : List Expr} (named : block.proccode? = some proccode)
    (lowered : Lowering.call place slot block = .ok (.call signature args)) :
    proccodeOf signature = proccode := by
  obtain ⟨mutation, called, _, isMutation, isProccode, -, same⟩ := Lowering.call_eq_ok.mp lowered
  obtain ⟨rfl, -⟩ := Stmt.call.inj same
  obtain rfl : called = proccode := by
    simpa [Block.proccode?, isMutation, isProccode] using named
  split
  · simp [proccodeOf, String.toList_append]
  · simp [proccodeOf, String.toList_append]

/-- A host loads a rebuilt program, with nothing kept in its caches. -/
theorem Host.load_precompiled {newId : List String → String} {settings : Settings}
    {source rebuilt : Project} {report : RebuildReport}
    (done : source.precompile? newId settings = some (rebuilt, report)) :
    ∃ host, Host.load rebuilt true = .ok host ∧
      host.support = some (.ofBootstrap ⟨Bootstrap.currentVersion, Helper.shipped⟩) := by
  obtain ⟨outcomes, -, isRebuilt⟩ := Option.bind_eq_some_iff.mp done
  obtain ⟨rfl, -⟩ := Prod.mk.inj (Option.some.inj isRebuilt)
  unfold Host.load
  simp only [Table.get?_insert, if_true]
  exact ⟨_, Host.install_document rfl _ _, rfl⟩

/-- A unit that succeeded is planted, and one that failed keeps its blocks. -/
theorem CompiledUnit.plan_cases {settings : Settings} {target : Target} {results : TargetResults}
    (compiledAll : target.compile? = some results)
    (numbers : ∀ x ∈ target.literalNumbers, x.isFinite = true) {compiled : CompiledUnit}
    (mem : compiled ∈ results.units) {top : Block}
    (found : target.block? compiled.top = some top) :
    (compiled.succeeded = true ∧ ∃ text, compiled.plan settings target = .ok (top, text)) ∨
      (compiled.succeeded = false ∧ ∃ reason, compiled.plan settings target = .error reason) := by
  cases outcome : compiled.result with
  | error reason =>
      refine .inr ⟨by simp [CompiledUnit.succeeded, outcome, Except.toBool], reason, ?_⟩
      simp [CompiledUnit.plan, outcome, bind, Except.bind]
  | ok body =>
      obtain ⟨script, lowers, carried⟩ := Target.exists_carries compiledAll mem outcome
      obtain ⟨text, isText, -⟩ := parse_markerText settings (lowers.sound numbers) carried
      refine .inl ⟨by simp [CompiledUnit.succeeded, outcome, Except.toBool], text, ?_⟩
      exact CompiledUnit.plan_eq_ok.mpr ⟨body, outcome, found, isText⟩

/-- A call of a declared procedure with a body is answered by what became of its own definition.
Where the links of hats and definitions agree, the prototype hangs off a definition with a unit.  In
the loaded program, at any time and whatever became of the other units, a call runs the step code of
this unit if it was compiled.  If it was refused, the call does nothing, unless the body that is kept
began with a marker. -/
theorem calls_reach_compiled_definitions {newId : List String → String}
    (fresh : ∀ used, newId used ∉ used) {settings : Settings} {source rebuilt : Project}
    {report : RebuildReport} (done : source.precompile? newId settings = some (rebuilt, report))
    (numbers : ∀ target ∈ source.targets, ∀ x ∈ target.literalNumbers, x.isFinite = true) :
    ∃ host support, Host.load rebuilt true = .ok host ∧ host.support = some support ∧
      ∀ (index : Nat) (before after : Target), source.targets[index]? = some before →
        rebuilt.targets[index]? = some after → before.EntriesLinked →
      ∀ (place : Place) (slot : String → Lowering.Lowered Expr) (block : Block) (signature : String)
        (args : List Expr), place.target = before →
        Lowering.call place slot block = .ok (.call signature args) →
      ∀ (proccode inner : String) (prototype : Block), block.proccode? = some proccode →
        before.prototype? proccode = some (inner, prototype) →
      ∃ results owner definition compiled, before.compile? = some results ∧
        prototype.parent = some owner ∧ before.block? owner = some definition ∧
        compiled ∈ results.procedures ∧ compiled.top = owner ∧
        ∀ next, definition.next = some next →
        ∀ (served : Target → Prop) (later : Support),
          (∀ other, served other → other.name = after.name → other = after) →
          Relation.ReflTransGen (Support.Serves served) support later →
          (compiled.succeeded = true → ∃ routine last text script,
            later.resolve after signature = .ok (some routine, last) ∧
            before.Lowers owner script ∧ Script.parse text = .ok script ∧
            Routine.load text support.helpers = .ok routine) ∧
          (compiled.succeeded = false →
            (∀ first, before.block? next = some first → first.opcode ≠ markerOpcode) →
            ∃ last, later.resolve after signature = .ok (none, last)) := by
  obtain ⟨host, loaded, isSupport⟩ := Host.load_precompiled done
  refine ⟨host, _, loaded, isSupport, ?_⟩
  intro index before after isBefore isAfter linked place slot block signature args _ lowered proccode
    inner prototype named declared
  obtain ⟨results, isRebuilt⟩ := Project.rebuilt_target done isBefore isAfter
  have readBack := numbers before (List.mem_of_getElem? isBefore)
  obtain ⟨owner, definition, parent, found, opcode⟩ := Target.exists_owner linked declared
  obtain ⟨compiled, mem, rfl⟩ := isRebuilt.exists_unit linked found opcode
  refine ⟨results, compiled.top, definition, compiled, isRebuilt.outcomes, parent, found, mem, rfl, ?_⟩
  intro next behind served later alone run
  have agrees := Support.agrees_of_fresh.of_serves alone run
  rw [← proccodeOf_call named lowered] at declared
  have isUnit : compiled ∈ results.units := List.mem_append_right _ mem
  rcases CompiledUnit.plan_cases isRebuilt.outcomes readBack isUnit found with
    ⟨succeeded, text, plan⟩ | ⟨failed, reason, plan⟩
  · refine ⟨fun _ => ?_, fun failed => by simp [succeeded] at failed⟩
    obtain ⟨isMarker, planted⟩ :=
      isRebuilt.procedureMarker?_of_plan fresh linked isUnit declared parent plan behind
    obtain ⟨script, routine, lowers, parsed, loads⟩ :=
      loadsAs_of_plan isRebuilt.outcomes readBack isUnit plan
    obtain ⟨last, resolved⟩ := agrees.resolve_present isMarker ⟨_, planted, rfl⟩ loads
    exact ⟨routine, last, text, script, resolved, lowers, parsed, loads⟩
  · refine ⟨fun succeeded => by simp [succeeded] at failed, fun _ unmarked => ?_⟩
    have missing := isRebuilt.procedureMarker?_of_kept fresh linked isUnit declared parent found plan
      behind unmarked
    exact agrees.resolve_missing missing

/-! ## Calls that are lost -/

/-- The call in the script of `hat` is lost: its procedure is declared and has a body, and a host that
has just loaded the rebuilt program finds no routine for it. -/
def Project.LosesCall (source : Project) (hat proccode : String) : Prop :=
  ∃ target script args inner prototype owner definition rebuilt report after host support last,
    source.targets = [target] ∧ target.Lowers hat script ∧
    Stmt.call ("Z" ++ proccode) args ∈ script.body ∧
    target.prototype? proccode = some (inner, prototype) ∧ prototype.parent = some owner ∧
    target.block? owner = some definition ∧ definition.next.isSome = true ∧
    source.precompile? (freshId 0) .default = some (rebuilt, report) ∧ rebuilt.targets = [after] ∧
    Host.load rebuilt true = .ok host ∧ host.support = some support ∧
    support.resolve after ("Z" ++ proccode) = .ok (none, last)

/-- A program with one target. -/
def Target.program (target : Target) : Project := ⟨[target], [], .empty, .empty⟩

/-- Whether a statement is a call of `signature`. -/
def Stmt.calls (signature : String) : Stmt → Bool
  | .call called _ => called == signature
  | _ => false

/-- A program loses a call if its compiled script makes the call, the procedure has a body, and no
marker answers. -/
theorem Project.losesCall {target : Target} {hat proccode : String}
    (made : (target.hats.map fun entry => (entry.1,
      (Lowering.chain ⟨target, [], false⟩ entry.2.next).toOption.map fun body =>
        body.any (Stmt.calls ("Z" ++ proccode)))) = [(hat, some true)])
    (hasBody : (target.prototype? proccode).map (fun found => found.2.parent.map fun owner =>
      (target.block? owner).map fun definition => definition.next.isSome) = some (some (some true)))
    (unanswered : (target.program.precompile? (freshId 0) .default).map (fun done =>
      done.1.targets.map fun after => after.procedureMarker? proccode) = some [none]) :
    target.program.LosesCall hat proccode := by
  obtain ⟨⟨id, entry⟩, isHats, isPair⟩ := List.map_eq_singleton_iff.mp made
  obtain ⟨rfl, lowered⟩ := Prod.mk.inj isPair
  obtain ⟨body, isBody, calls⟩ := Option.map_eq_some_iff.mp lowered
  obtain ⟨stmt, inBody, isCall⟩ := List.any_eq_true.mp calls
  obtain ⟨args, rfl⟩ : ∃ args, stmt = .call ("Z" ++ proccode) args := by
    cases stmt <;> simp_all [Stmt.calls]
  have lowers := Target.Lowers.hat (isHats ▸ List.mem_singleton_self _) (toOption_eq_some.mp isBody)
  obtain ⟨⟨inner, prototype⟩, declared, rest⟩ := Option.map_eq_some_iff.mp hasBody
  obtain ⟨owner, parent, rest⟩ := Option.map_eq_some_iff.mp rest
  obtain ⟨definition, found, behind⟩ := Option.map_eq_some_iff.mp rest
  obtain ⟨⟨rebuilt, report⟩, done, markers⟩ := Option.map_eq_some_iff.mp unanswered
  obtain ⟨after, isAfter, missing⟩ := List.map_eq_singleton_iff.mp markers
  obtain ⟨host, loaded, isSupport⟩ := Host.load_precompiled done
  have agrees : (Support.ofBootstrap ⟨Bootstrap.currentVersion, Helper.shipped⟩).Agrees _ after :=
    Support.agrees_of_fresh
  have bare : proccodeOf ("Z" ++ proccode) = proccode := by simp [proccodeOf, String.toList_append]
  obtain ⟨last, resolved⟩ := agrees.resolve_missing (bare.symm ▸ missing)
  exact ⟨target, _, args, inner, prototype, owner, definition, rebuilt, report, after, host, _, last, rfl,
    lowers, inBody, declared, parent, found, behind, done, isAfter, loaded, isSupport, resolved⟩

/-- A stage where a flag starts a script that calls `p`, with the given definitions. -/
def callingTarget (definitions : List (String × Block)) : Target where
  isStage := true
  name := "Stage"
  vars := .empty
  blocks := ⟨[
    ("h", .block { Block.bare "event_whenflagclicked" with next := some "c", topLevel := true }),
    ("c", .block { Block.bare callOpcode with
      parent := some "h"
      mutation := some ⟨some "p", none, none, none, .empty⟩ })] ++
    definitions.map fun entry => (entry.1, .block entry.2)⟩
  comments := .empty
  extra := .empty

def definitionBlock (prototype next : String) : Block :=
  { Block.bare definitionOpcode with
    next := some next
    topLevel := true
    inputs := ⟨[("custom_block", .array [.int 1, .text prototype])]⟩ }

def prototypeBlock (proccode parent : String) : Block :=
  { Block.bare "procedures_prototype" with
    parent := some parent
    shadow := true
    mutation := some ⟨some proccode, none, none, none, .empty⟩ }

/-- A statement without the variable it sets: it is refused. -/
def refusedBlock (parent : String) : Block :=
  { Block.bare "data_setvariableto" with parent := some parent }

def sayingBlock (parent : String) : Block :=
  { Block.bare "looks_say" with parent := some parent }

/-- The procedure itself is refused. -/
def refusedProcedure : Target :=
  callingTarget [("d", definitionBlock "q" "b"), ("q", prototypeBlock "p" "d"), ("b", refusedBlock "d")]

/-- The definition is followed by its own prototype. -/
def selfFollowingDefinition : Target :=
  callingTarget [("d", definitionBlock "q" "q"), ("q", prototypeBlock "p" "d")]

/-- The definition is followed by the prototype of another one. -/
def borrowingDefinition : Target :=
  callingTarget [("d", definitionBlock "q" "r"), ("q", prototypeBlock "p" "d"),
    ("e", definitionBlock "r" "b"), ("r", prototypeBlock "s" "e"), ("b", sayingBlock "e")]

/-- The definition hangs off another one. -/
def nestedDefinition : Target :=
  callingTarget [("d", { definitionBlock "q" "b" with parent := some "e" }),
    ("q", prototypeBlock "p" "d"), ("b", sayingBlock "d"), ("e", definitionBlock "r" "d"),
    ("r", prototypeBlock "s" "e")]

/-- The prototype is held by one definition, which is refused, and hangs off another one. -/
def sharedPrototype : Target :=
  callingTarget [("d", definitionBlock "q" "a"), ("q", prototypeBlock "p" "e"),
    ("a", refusedBlock "d"), ("e", definitionBlock "r" "b"), ("r", prototypeBlock "s" "e"),
    ("b", sayingBlock "e")]

/-- Calls are lost if the procedure itself is refused, and if the links of definitions do not agree,
even if the procedure is compiled. -/
theorem calls_lost_behind_refused_or_tangled_definitions :
    refusedProcedure.program.LosesCall "h" "p" ∧ selfFollowingDefinition.program.LosesCall "h" "p" ∧
      borrowingDefinition.program.LosesCall "h" "p" ∧ nestedDefinition.program.LosesCall "h" "p" ∧
      sharedPrototype.program.LosesCall "h" "p" := by
  have lost : ∀ target ∈ [refusedProcedure, selfFollowingDefinition, borrowingDefinition,
      nestedDefinition, sharedPrototype], target.program.LosesCall "h" "p" := by
    intro target mem
    refine Project.losesCall ?_ ?_ ?_
    · revert target
      decide +kernel
    · revert target
      decide +kernel
    · revert target
      decide +kernel
  exact ⟨lost _ (by simp), lost _ (by simp), lost _ (by simp), lost _ (by simp), lost _ (by simp)⟩

/-- The procedure is compiled. -/
def sayingProcedure : Target :=
  callingTarget [("d", definitionBlock "q" "b"), ("q", prototypeBlock "p" "d"), ("b", sayingBlock "d")]

/-- The call of a procedure that says something runs its step code. -/
theorem call_of_sayingProcedure_answered :
    ∃ rebuilt report after host support routine last,
      sayingProcedure.program.precompile? (freshId 0) .default =
        some (rebuilt, report) ∧
      rebuilt.targets[0]? = some after ∧ sayingProcedure.EntriesLinked ∧
      Host.load rebuilt true = .ok host ∧ host.support = some support ∧
      support.resolve after "Zp" = .ok (some routine, last) := by
  have ends : (sayingProcedure.program.precompile? (freshId 0)
      .default).map (fun done => done.1.targets.length) = some 1 := by decide +kernel
  obtain ⟨⟨rebuilt, report⟩, done, single⟩ := Option.map_eq_some_iff.mp ends
  obtain ⟨after, isAfter⟩ := List.length_eq_one_iff.mp single
  have numbers : ∀ target ∈ [sayingProcedure], ∀ x ∈ target.literalNumbers, x.isFinite = true := by
    decide +kernel
  have linked : sayingProcedure.EntriesLinked := by decide +kernel
  have compiles : sayingProcedure.compile?.map (fun results => results.procedures.map fun compiled =>
      compiled.succeeded) = some [true] := by decide +kernel
  have declares : (sayingProcedure.prototype? "p").isSome = true := by decide +kernel
  obtain ⟨⟨inner, prototype⟩, declared⟩ := Option.isSome_iff_exists.mp declares
  have lowered : Lowering.call ⟨sayingProcedure, [], false⟩ (fun _ => .ok (.text ""))
      { Block.bare callOpcode with mutation := some ⟨some "p", none, none, none, .empty⟩ } =
        .ok (.call "Zp" []) := by rfl
  obtain ⟨host, support, loaded, isSupport, answers⟩ :=
    calls_reach_compiled_definitions (freshId_not_mem 0) done numbers
  have isTarget : rebuilt.targets[0]? = some after := by rw [isAfter]; rfl
  obtain ⟨results, owner, definition, compiled, compiledAll, parent, found, mem, -, runs⟩ :=
    answers 0 sayingProcedure after rfl isTarget linked _ _ _ _ _ rfl lowered "p" inner prototype rfl
      declared
  have succeeded : compiled.succeeded = true := by
    rw [compiledAll] at compiles
    have all : ∀ succeeded ∈ results.procedures.map (·.succeeded), succeeded = true := by
      simp only [Option.map_some, Option.some.injEq] at compiles
      simp [compiles]
    exact all _ (List.mem_map_of_mem mem)
  have hasBody : (sayingProcedure.prototype? "p").map (fun found => found.2.parent.map fun owner =>
      (sayingProcedure.block? owner).map fun definition => definition.next) =
        some (some (some (some "b"))) := by decide +kernel
  have behind : definition.next = some "b" := by simpa [declared, parent, found] using hasBody
  obtain ⟨routine, last, -, -, resolved, -⟩ :=
    (runs "b" behind (fun _ => False) support (fun _ never => never.elim) .refl).1 succeeded
  exact ⟨rebuilt, report, after, host, support, routine, last, done, isTarget, linked, loaded, isSupport,
    resolved⟩

end StepCode
