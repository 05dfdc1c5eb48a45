import Mathlib.Data.List.Duplicate
import Mathlib.Data.List.Chain
import Mathlib.Data.List.Perm.Subperm
import StepCode.Proofs.Lowering.Parts

/-!
# When lowering ends

Blocks are followed through the ids in their slots and links, and a table may hold any ids.  Lowering
ends exactly when it never comes to a block again, as a statement or as a reporter, while it is still
lowering that block in the same role.  Only the blocks behind parts that have step code count: lowering
stops at the first part that is refused.
-/

namespace StepCode.Lowering

open Relation

/-- A block while it is lowered, in one of its two roles. -/
inductive Node where
  | statement (id : String)
  | reporter (id : String)
deriving DecidableEq, Repr

def Node.id : Node → String
  | .statement id => id
  | .reporter id => id

variable (place : Place)

/-- A slot has a value within some depth. -/
def SlotHasCode (block : Block) (name : String) : Prop :=
  ∃ depth value, input place (reported place depth) block name = .ok value

/-- A substack has step code within some depth. -/
def StackHasCode (block : Block) (name : String) : Prop :=
  ∃ depth body, chainWithin place depth (block.inputBlock? name) = .ok body

/-- Lowering a chain comes to the block `id`: all blocks in front of it have step code. -/
inductive Meets : (room : Nat) → (first : Option String) → (id : String) → Prop
  | here {room : Nat} {id : String} {block : Block} (found : place.target.block? id = some block) :
      Meets (room + 1) (some id) id
  | later {room : Nat} {id other : String} {block : Block} {depth : Nat} {stmt : Stmt}
      (found : place.target.block? id = some block) (code : nested place depth block = .ok stmt)
      (rest : Meets room block.next other) : Meets (room + 1) (some id) other

/-- While lowering one block, lowering comes to the other one. -/
inductive Opens : Node → Node → Prop
  | reporterSlot {id inner name : String} {block : Block} {before after : List String}
      (found : place.target.block? id = some block)
      (slots : reporterSlots block = before ++ name :: after)
      (code : ∀ earlier ∈ before, SlotHasCode place block earlier)
      (held : block.inputBlock? name = some inner) (exist : (place.target.block? inner).isSome) :
      Opens (.reporter id) (.reporter inner)
  | statementSlot {id inner name : String} {block : Block} {before after : List String}
      (found : place.target.block? id = some block)
      (slots : statementSlots block = before ++ name :: after)
      (code : ∀ earlier ∈ before, SlotHasCode place block earlier)
      (held : block.inputBlock? name = some inner) (exist : (place.target.block? inner).isSome) :
      Opens (.statement id) (.reporter inner)
  | stack {id inner name : String} {block : Block} {before after : List String}
      (found : place.target.block? id = some block)
      (slots : ∀ slot ∈ statementSlots block, SlotHasCode place block slot)
      (substacks : statementStacks block = before ++ name :: after)
      (code : ∀ earlier ∈ before, StackHasCode place block earlier)
      (met : Meets place place.target.blocks.size (block.inputBlock? name) inner) :
      Opens (.statement id) (.statement inner)

/-- While it lowers a block, lowering comes to that block again. -/
def Returns (node : Node) : Prop :=
  ∃ again, ReflTransGen (Opens place) node again ∧ TransGen (Opens place) again again

/-- Lowering the chain from `first` on comes to a block that it is still lowering. -/
def Reenters (first : Option String) : Prop :=
  ∃ id, Meets place place.target.blocks.size first id ∧ Returns place (.statement id)

variable {place}

/-! ## Without end, lowering comes to a block again -/

theorem exists_of_meets {room : Nat} {first : Option String} {id : String}
    (met : Meets place room first id) : (place.target.block? id).isSome := by
  induction met with
  | here found => simp [found]
  | later _ _ _ ih => exact ih

/-- A chain without a first block comes to no block. -/
theorem Meets.not_none {room : Nat} {id : String} : ¬ Meets place room none id := by
  rintro ⟨⟩

theorem exists_of_opens {node inner : Node} (opens : Opens place node inner) :
    (place.target.block? inner.id).isSome := by
  cases opens with
  | reporterSlot _ _ _ _ exist => exact exist
  | statementSlot _ _ _ _ exist => exact exist
  | stack _ _ _ _ met => exact exists_of_meets met

/-- A chain without end comes to a block without end. -/
theorem meets_of_follow_endless {depth room : Nat} {first : Option String}
    (endless : follow place (nested place depth) room first = .error .endless) :
    ∃ id block, Meets place room first id ∧ place.target.block? id = some block ∧
      nested place depth block = .error .endless := by
  induction room generalizing first with
  | zero => cases first <;> simp [follow, refuse] at endless
  | succ room ih =>
      cases first with
      | none => simp [follow] at endless
      | some id =>
          simp only [follow, Place.block] at endless
          cases found : place.target.block? id with
          | none => simp [found, refuse, bind, Except.bind] at endless
          | some block =>
              simp only [found, bind_eq_error, pure, Except.pure, reduceCtorEq, and_false,
                exists_false, or_false, false_or, Except.ok.injEq, exists_eq_left'] at endless
              rcases endless with here | ⟨stmt, code, rest⟩
              · exact ⟨id, block, .here found, found, here⟩
              · obtain ⟨other, inner, met, exist, there⟩ := ih rest
                exact ⟨other, inner, .later found code met, exist, there⟩

/-- Where a reporter needs more than `depth` blocks, that many open one another. -/
theorem path_of_reported_endless {depth : Nat} {id : String} {block : Block}
    (found : place.target.block? id = some block)
    (endless : reported place depth block = .error .endless) :
    ∃ path : List Node, path.length = depth ∧ (Node.reporter id :: path).IsChain (Opens place) := by
  induction depth generalizing id block with
  | zero => exact ⟨[], rfl, by simp⟩
  | succ depth ih =>
      obtain ⟨before, name, after, slots, code, held⟩ :=
        mapM_eq_error.mp (reporter_eq_endless.mp endless)
      obtain ⟨inner, innerBlock, held, exist, there⟩ := input_eq_endless.mp held
      obtain ⟨path, length, chain⟩ := ih exist there
      refine ⟨.reporter inner :: path, by simp [length], .cons_cons ?_ chain⟩
      exact .reporterSlot found slots (fun earlier mem => ⟨depth, code earlier mem⟩) held
        (by simp [exist])

/-- Where a statement needs more than `depth` blocks, that many open one another. -/
theorem path_of_nested_endless {depth : Nat} {id : String} {block : Block}
    (found : place.target.block? id = some block)
    (endless : nested place depth block = .error .endless) :
    ∃ path : List Node, path.length = depth ∧ (Node.statement id :: path).IsChain (Opens place) := by
  induction depth generalizing id block with
  | zero => exact ⟨[], rfl, by simp⟩
  | succ depth ih =>
      rcases statement_eq_endless.mp endless with slots | ⟨⟨values, slots⟩, substacks⟩
      · obtain ⟨before, name, after, slots, code, held⟩ := mapM_eq_error.mp slots
        obtain ⟨inner, innerBlock, held, exist, there⟩ := input_eq_endless.mp held
        obtain ⟨path, length, chain⟩ := path_of_reported_endless exist there
        refine ⟨.reporter inner :: path, by simp [length], .cons_cons ?_ chain⟩
        exact .statementSlot found slots (fun earlier mem => ⟨depth, code earlier mem⟩) held
          (by simp [exist])
      · obtain ⟨before, name, after, substacks, code, held⟩ := mapM_eq_error.mp substacks
        obtain ⟨inner, innerBlock, met, exist, there⟩ := meets_of_follow_endless held
        obtain ⟨path, length, chain⟩ := ih exist there
        refine ⟨.statement inner :: path, by simp [length], .cons_cons ?_ chain⟩
        have values : ∀ slot ∈ statementSlots block, SlotHasCode place block slot :=
          fun slot mem => ⟨depth, exists_mapM_eq_ok.mp ⟨values, slots⟩ slot mem⟩
        exact .stack found values substacks (fun earlier mem => ⟨depth, code earlier mem⟩) met

/-- A path that visits a node twice leads back to it. -/
theorem returns_of_duplicate {relation : Node → Node → Prop} {start : Node} {path : List Node}
    (chain : (start :: path).IsChain relation) (repeated : ¬ (start :: path).Nodup) :
    ∃ again, ReflTransGen relation start again ∧ TransGen relation again again := by
  have ordered : (start :: path).Pairwise (TransGen relation) :=
    (chain.imp fun _ _ edge => TransGen.single edge).pairwise
  obtain ⟨again, twice⟩ := List.exists_duplicate_iff_not_nodup.mpr repeated
  have loop : TransGen relation again again := by
    have pair := ordered.sublist (List.duplicate_iff_sublist.mp twice)
    simpa using pair
  refine ⟨again, ?_, loop⟩
  rcases List.mem_cons.mp twice.mem with rfl | mem
  · exact .refl
  · exact (List.rel_of_pairwise_cons ordered mem).to_reflTransGen

theorem exists_of_path {start : Node} {path : List Node}
    (found : (place.target.block? start.id).isSome)
    (chain : (start :: path).IsChain (Opens place)) :
    ∀ node ∈ start :: path, (place.target.block? node.id).isSome := by
  induction path generalizing start with
  | nil => simpa using found
  | cons next rest ih =>
      obtain ⟨edge, tail⟩ := List.isChain_cons_cons.mp chain
      intro node mem
      rcases List.mem_cons.mp mem with rfl | mem
      · exact found
      · exact ih (exists_of_opens edge) tail node mem

theorem mem_keys_of_exists {id : String} (exist : (place.target.block? id).isSome) :
    id ∈ place.target.blocks.keys := by
  simp only [Target.block?, blockIn] at exist
  cases entry : place.target.blocks.get? id with
  | none => simp [entry] at exist
  | some value => exact Table.mem_keys_of_get? entry

/-- There are no more nodes than twice the size of the table, so a longer path visits one twice. -/
theorem not_nodup_of_long {start : Node} {path : List Node}
    (found : (place.target.block? start.id).isSome)
    (chain : (start :: path).IsChain (Opens place))
    (long : 2 * place.target.blocks.size ≤ path.length) : ¬ (start :: path).Nodup := by
  intro distinct
  let keys := place.target.blocks.keys
  have within : start :: path ⊆ keys.map Node.statement ++ keys.map Node.reporter := by
    intro node mem
    have key : node.id ∈ keys := mem_keys_of_exists (exists_of_path found chain node mem)
    cases node <;> simp_all [Node.id]
  have bound := (List.subperm_of_subset distinct within).length_le
  have size : keys.length = place.target.blocks.size := by simp [keys, Table.keys, Table.size]
  simp only [List.length_cons, List.length_append, List.length_map, size] at bound
  omega

/-- A chain that needs more depth than there are nodes comes to a block that is still lowered. -/
theorem reenters_of_endless {first : Option String}
    (endless : chain place first = .error .endless) : Reenters place first := by
  obtain ⟨id, block, met, found, there⟩ := meets_of_follow_endless endless
  obtain ⟨path, length, edges⟩ := path_of_nested_endless found there
  have exist : (place.target.block? (Node.statement id).id).isSome := by simp [Node.id, found]
  have repeated := not_nodup_of_long exist edges (by omega)
  exact ⟨id, met, returns_of_duplicate edges repeated⟩

/-! ## Coming to a block again, lowering has no end -/

theorem Returns.step {node : Node} (returns : Returns place node) :
    ∃ inner, Opens place node inner ∧ Returns place inner := by
  obtain ⟨again, reach, loop⟩ := returns
  rcases reach.cases_head with rfl | ⟨inner, edge, reach⟩
  · obtain ⟨inner, edge, back⟩ := TransGen.head'_iff.mp loop
    exact ⟨inner, edge, node, back, loop⟩
  · exact ⟨inner, edge, again, reach, loop⟩

/-- Parts that have a value within some depth, and behind them one that has none yet. -/
theorem mapM_endless_of_mem {α : Type} {part : Nat → String → Lowered α}
    (settle : ∀ name depth, Settles (part depth name) (part (depth + 1) name))
    {depth : Nat} {before after : List String} {name : String}
    (code : ∀ earlier ∈ before, ∃ enough value, part enough earlier = .ok value)
    (here : part depth name = .error .endless) :
    (before ++ name :: after).mapM (part depth) = .error .endless := by
  induction before with
  | nil => simp [here, bind, Except.bind]
  | cons earlier rest ih =>
      simp only [List.cons_append, List.mapM_cons, bind_eq_error]
      by_cases waits : part depth earlier = .error .endless
      · exact .inl waits
      · obtain ⟨enough, value, found⟩ := code earlier (by simp)
        have there := eq_of_settles (settle earlier) found waits
        refine .inr ⟨value, there, .inl ?_⟩
        exact ih fun other mem => code other (by simp [mem])

/-- Parts that have a value within some depth have it within this one, or need more. -/
theorem mapM_settled {α : Type} {part : Nat → String → Lowered α}
    (settle : ∀ name depth, Settles (part depth name) (part (depth + 1) name))
    (depth : Nat) {names : List String}
    (code : ∀ name ∈ names, ∃ enough value, part enough name = .ok value) :
    names.mapM (part depth) = .error .endless ∨ ∃ values, names.mapM (part depth) = .ok values := by
  by_cases waits : ∃ name ∈ names, part depth name = .error .endless
  · obtain ⟨name, mem, here⟩ := waits
    obtain ⟨before, after, rfl⟩ := List.append_of_mem mem
    exact .inl (mapM_endless_of_mem settle (fun earlier mem => code earlier (by simp [mem])) here)
  · refine .inr (exists_mapM_eq_ok.mpr fun name mem => ?_)
    obtain ⟨enough, value, found⟩ := code name mem
    exact ⟨value, eq_of_settles (settle name) found fun here => waits ⟨name, mem, here⟩⟩

theorem input_settles_depth (block : Block) (name : String) (depth : Nat) :
    Settles (input place (reported place depth) block name)
      (input place (reported place (depth + 1)) block name) :=
  input_settles place block name (reported_settles place depth)

theorem reported_endless_of_returns (depth : Nat) {id : String} {block : Block}
    (found : place.target.block? id = some block) (returns : Returns place (.reporter id)) :
    reported place depth block = .error .endless := by
  induction depth generalizing id block with
  | zero => rfl
  | succ depth ih =>
      obtain ⟨node, edge, returns⟩ := returns.step
      cases edge with
      | reporterSlot found' slots code held exist =>
          obtain rfl : block = _ := Option.some.inj (found.symm.trans found')
          obtain ⟨inner, exist⟩ := Option.isSome_iff_exists.mp exist
          refine reporter_eq_endless.mpr ?_
          rw [slots]
          exact mapM_endless_of_mem (input_settles_depth block) code
            (input_eq_endless.mpr ⟨_, inner, held, exist, ih exist returns⟩)

theorem follow_endless_of_meets {depth room : Nat} {first : Option String} {id : String}
    {block : Block} (met : Meets place room first id) (found : place.target.block? id = some block)
    (endless : nested place depth block = .error .endless) :
    follow place (nested place depth) room first = .error .endless := by
  induction met with
  | here =>
      simp [follow, Place.block, found, endless, bind, Except.bind]
  | @later room here other front enough stmt front' code rest ih =>
      simp only [follow, Place.block, front', bind_eq_error]
      refine .inr ⟨front, rfl, ?_⟩
      by_cases waits : nested place depth front = .error .endless
      · exact .inl waits
      · have there := eq_of_settles (nested_settles place · front) code waits
        exact .inr ⟨stmt, there, .inl (ih found)⟩

theorem nested_endless_of_returns (depth : Nat) {id : String} {block : Block}
    (found : place.target.block? id = some block) (returns : Returns place (.statement id)) :
    nested place depth block = .error .endless := by
  induction depth generalizing id block with
  | zero => rfl
  | succ depth ih =>
      obtain ⟨node, edge, returns⟩ := returns.step
      refine statement_eq_endless.mpr ?_
      cases edge with
      | statementSlot found' slots code held exist =>
          obtain rfl : block = _ := Option.some.inj (found.symm.trans found')
          obtain ⟨inner, exist⟩ := Option.isSome_iff_exists.mp exist
          rw [slots]
          exact .inl (mapM_endless_of_mem (input_settles_depth block) code
            (input_eq_endless.mpr
              ⟨_, inner, held, exist, reported_endless_of_returns depth exist returns⟩))
      | stack found' slots substacks code met =>
          obtain rfl : block = _ := Option.some.inj (found.symm.trans found')
          obtain ⟨inner, exist⟩ := Option.isSome_iff_exists.mp (exists_of_meets met)
          rcases mapM_settled (input_settles_depth block) depth slots with waits | values
          · exact .inl waits
          · refine .inr ⟨values, ?_⟩
            rw [substacks]
            exact mapM_endless_of_mem
              (fun name depth => chainWithin_settles place depth (block.inputBlock? name)) code
              (follow_endless_of_meets met exist (ih exist returns))

/-- A chain comes to no end within any depth exactly when it comes to a block that it is still
lowering.  If it ends, it ends within the depth that is allowed for. -/
theorem endless_iff_reenters {first : Option String} :
    (∀ depth, chainWithin place depth first = .error .endless) ↔ Reenters place first := by
  constructor
  · intro endless
    exact reenters_of_endless (endless _)
  · rintro ⟨id, met, returns⟩ depth
    obtain ⟨block, found⟩ := Option.isSome_iff_exists.mp (exists_of_meets met)
    exact follow_endless_of_meets met found (nested_endless_of_returns depth found returns)

theorem chain_eq_endless_iff {first : Option String} :
    chain place first = .error .endless ↔ Reenters place first :=
  ⟨reenters_of_endless, fun reenters => endless_iff_reenters.mpr reenters _⟩

end StepCode.Lowering

namespace StepCode

open Lowering

/-- What is lowered for a hat or a definition: the place of the body and its first block. -/
structure Body where
  place : Place
  first : Option String

namespace Target

variable (target : Target)

def hatBody (hat : Block) : Body := ⟨⟨target, [], false⟩, hat.next⟩

/-- A definition without a prototype is refused before any block is lowered. -/
def definitionBody? (definition : Definition) : Option Body :=
  (definition.prototype.bind Block.mutation).map fun mutation =>
    ⟨⟨target, mutation.names, mutation.isWarp⟩, definition.block.next⟩

/-- The bodies that compiling a target lowers: those of the hats, then those of the definitions. -/
def bodies : List Body :=
  target.hats.map (fun hat => target.hatBody hat.2) ++ target.definitions.filterMap
    target.definitionBody?

variable {target}

theorem target_of_mem_bodies {body : Body} (mem : body ∈ target.bodies) :
    body.place.target = target := by
  rcases List.mem_append.mp mem with hat | definition
  · obtain ⟨_, -, rfl⟩ := List.mem_map.mp hat
    rfl
  · obtain ⟨_, -, isBody⟩ := List.mem_filterMap.mp definition
    obtain ⟨_, -, rfl⟩ := Option.map_eq_some_iff.mp isBody
    rfl

theorem ofLowered?_eq_none {top : String} {body : Lowered CompiledBody} :
    CompiledUnit.ofLowered? top body = none ↔ body = .error .endless := by
  unfold CompiledUnit.ofLowered?
  split <;> simp

theorem lowerHat_eq_endless {hat : Block} :
    target.lowerHat hat = .error .endless ↔
      Reenters (target.hatBody hat).place (target.hatBody hat).first := by
  unfold lowerHat hatBody
  simp [bind_eq_error, pure, Except.pure, chain_eq_endless_iff]

theorem lowerDefinition_eq_endless {definition : Definition} :
    target.lowerDefinition definition = .error .endless ↔
      ∃ body, target.definitionBody? definition = some body ∧ Reenters body.place body.first := by
  unfold lowerDefinition definitionBody?
  cases definition.prototype.bind Block.mutation with
  | none => simp [refuse]
  | some mutation => simp [bind_eq_error, pure, Except.pure, chain_eq_endless_iff]

end Target

/-- There are no results exactly when some body comes to a block that is still being lowered. -/
theorem Target.compile?_eq_none {target : Target} :
    target.compile? = none ↔ ∃ body ∈ target.bodies, Reenters body.place body.first := by
  have split : target.compile? = none ↔
      (∃ hat ∈ target.hats, target.lowerHat hat.2 = .error .endless) ∨
        ∃ definition ∈ target.definitions,
          target.lowerDefinition definition = .error .endless := by
    unfold Target.compile?
    rw [pair_eq_none]
    simp only [mapM_eq_none, bind_pure_comp, Functor.map, Option.map_eq_none_iff,
      Target.ofLowered?_eq_none]
  rw [split]
  simp only [Target.lowerHat_eq_endless, Target.lowerDefinition_eq_endless, Target.bodies,
    List.mem_append, List.mem_map, List.mem_filterMap]
  constructor
  · rintro (⟨hat, mem, reenters⟩ | ⟨definition, mem, body, isBody, reenters⟩)
    · exact ⟨_, .inl ⟨hat, mem, rfl⟩, reenters⟩
    · exact ⟨body, .inr ⟨definition, mem, isBody⟩, reenters⟩
  · rintro ⟨body, ⟨hat, mem, rfl⟩ | ⟨definition, mem, isBody⟩, reenters⟩
    · exact .inl ⟨hat, mem, reenters⟩
    · exact .inr ⟨definition, mem, body, isBody, reenters⟩

/-- Compiling a target ends, with step code or a reason for every hat and every definition, exactly
when no body comes to a block that is still being lowered; and a body that does not, ends within
finitely many blocks nested in one another. -/
theorem compile?_ends_iff_no_body_reenters (target : Target) :
    ((∃ results, target.compile? = some results) ↔
      ∀ body ∈ target.bodies, ¬ Reenters body.place body.first) ∧
    ∀ body ∈ target.bodies,
      ((∃ depth, chainWithin body.place depth body.first ≠ .error .endless) ↔
        ¬ Reenters body.place body.first) := by
  refine ⟨?_, fun body _ => ?_⟩
  · rw [← Option.isSome_iff_exists, ← Option.ne_none_iff_isSome, Ne, Target.compile?_eq_none]
    push Not
    rfl
  · rw [← endless_iff_reenters]
    push Not
    rfl

/-- A script whose only statement is a loop that names itself as its own substack. -/
def selfNestedLoop : Target where
  isStage := true
  name := "Stage"
  vars := .empty
  blocks := ⟨[
    ("h", .block { Block.bare "event_whenflagclicked" with next := some "a", topLevel := true }),
    ("a", .block { Block.bare "control_forever" with
      parent := some "h"
      inputs := ⟨[("SUBSTACK", .array [.int 2, .text "a"])]⟩ })]⟩
  comments := .empty
  extra := .empty

/-- Compiling this target has no outcome, although the target has one hat: however many blocks are
allowed to be nested in one another, its script is not lowered. -/
theorem selfNestedLoop_has_no_outcome :
    selfNestedLoop.hats.map (·.1) = ["h"] ∧ selfNestedLoop.compile?.isNone ∧
      ∀ depth, chainWithin ⟨selfNestedLoop, [], false⟩ depth (some "a") = .error .endless := by
  refine ⟨rfl, rfl, endless_iff_reenters.mpr (chain_eq_endless_iff.mp rfl)⟩

end StepCode
