import StepCode.Proofs.Lowering.Reentry
import StepCode.Proofs.Rebuild.Links

/-!
# Blocks as a forest

In a well-formed target the blocks that hang off each other form a forest: what a block refers to
hangs off it and is referred to once, and going from parent to parent ends.  The script of a block is
the tree below it, trees of different entry blocks have nothing in common, and compiling ends.
-/

namespace StepCode

open Relation

/-- The ids that a block refers to: what follows it, and what its slots hold. -/
def Block.links (block : Block) : List String :=
  block.next.toList ++ block.inputs.keys.filterMap block.inputBlock?

theorem Block.mem_links {block : Block} {id : String} :
    id ∈ block.links ↔ block.next = some id ∨ ∃ name, block.inputBlock? name = some id := by
  simp only [Block.links, List.mem_append, Option.mem_toList, List.mem_filterMap]
  constructor
  · rintro (next | ⟨name, -, held⟩)
    · exact .inl next
    · exact .inr ⟨name, held⟩
  · rintro (next | ⟨name, held⟩)
    · exact .inl next
    · exact .inr ⟨name, Block.mem_inputs_keys held, held⟩

namespace Target

variable (target : Target)

/-- The block `child` is there and has the parent `parent`. -/
def HangsOff (child parent : String) : Prop :=
  ∃ block, target.block? child = some block ∧ block.parent = some parent

/-- The ids that the blocks of a target refer to, as often as they do. -/
def links : List String := target.blockList.flatMap fun entry => entry.2.links

/-- The links of a target agree. -/
structure WellFormed : Prop where
  /-- No two entries have the same id. -/
  distinct : target.blocks.keys.Nodup
  /-- What a block refers to is there and hangs off it. -/
  linked : ∀ entry ∈ target.blockList, ∀ inner ∈ entry.2.links, target.HangsOff inner entry.1
  /-- Nothing is referred to twice. -/
  once : target.links.Nodup
  /-- Going from parent to parent ends. -/
  ends : WellFounded fun parent child => target.HangsOff child parent
  /-- Hats and definitions hang off nothing. -/
  root : ∀ entry ∈ target.blockList, entry.2.isHat = true ∨ entry.2.opcode = definitionOpcode →
    entry.2.parent = none

/-- The block `id` is `root` or hangs off it through others. -/
def Below : String → String → Prop := ReflTransGen target.HangsOff

variable {target} {id inner root other parent : String} {block : Block}

theorem HangsOff.unique (first : target.HangsOff id parent) (second : target.HangsOff id other) :
    parent = other := by
  obtain ⟨block, found, isParent⟩ := first
  obtain ⟨_, same, isOther⟩ := second
  obtain rfl := Option.some.inj (found.symm.trans same)
  exact Option.some.inj (isParent.symm.trans isOther)

/-- Of two blocks that the same block is below, one is below the other. -/
theorem Below.linear (first : target.Below id root) (second : target.Below id other) :
    target.Below root other ∨ target.Below other root :=
  ReflTransGen.total_of_right_unique (fun _ _ _ => HangsOff.unique) first second

/-- All but the last block on the way from parent to parent are there. -/
theorem exists_of_mem_dropLast {start : String} {path : List String}
    (chain : (start :: path).IsChain target.HangsOff) :
    ∀ id ∈ (start :: path).dropLast, ∃ block, target.block? id = some block := by
  induction path generalizing start with
  | nil => simp
  | cons next path ih =>
      obtain ⟨⟨block, found, -⟩, rest⟩ := List.isChain_cons_cons.mp chain
      intro id mem
      rw [List.dropLast_cons_cons] at mem
      rcases List.mem_cons.mp mem with rfl | later
      · exact ⟨block, found⟩
      · exact ih rest id later

/-- A target is well formed if what each block refers to hangs off it: then no two blocks refer to
the same one. -/
theorem WellFormed.of_linked (distinct : target.blocks.keys.Nodup)
    (linked : ∀ entry ∈ target.blockList, ∀ inner ∈ entry.2.links, target.HangsOff inner entry.1)
    (single : ∀ entry ∈ target.blockList, entry.2.links.Nodup)
    (ends : WellFounded fun parent child => target.HangsOff child parent)
    (root : ∀ entry ∈ target.blockList, entry.2.isHat = true ∨ entry.2.opcode = definitionOpcode →
      entry.2.parent = none) : target.WellFormed := by
  refine ⟨distinct, linked, List.nodup_flatMap.mpr ⟨single, ?_⟩, ends, root⟩
  have apart : target.blockList.Pairwise fun first second => first.1 ≠ second.1 := by
    refine (List.pairwise_map.mp distinct).filterMap _ ?_
    rintro ⟨id, entry⟩ ⟨other, otherEntry⟩ different _ isFirst _ isSecond
    obtain ⟨_, -, rfl⟩ := Option.map_eq_some_iff.mp isFirst
    obtain ⟨_, -, rfl⟩ := Option.map_eq_some_iff.mp isSecond
    exact different
  refine apart.imp_of_mem ?_
  intro first second firstMem secondMem different inner inFirst inSecond
  exact different ((linked first firstMem inner inFirst).unique (linked second secondMem inner inSecond))

/-- Going from parent to parent ends if each block has a rank above that of its parent. -/
theorem ends_of_rank (rank : String → Nat)
    (falls : ∀ entry ∈ target.blockList, ∀ parent ∈ entry.2.parent, rank parent < rank entry.1) :
    WellFounded fun parent child => target.HangsOff child parent := by
  refine Subrelation.wf ?_ (InvImage.wf rank Nat.lt_wfRel.wf)
  rintro parent child ⟨block, found, isParent⟩
  exact falls (child, block) (Target.mem_blockList_of_block? found) parent isParent

namespace WellFormed

variable (wellFormed : target.WellFormed)

include wellFormed

theorem hangsOff (found : target.block? id = some block) (refers : inner ∈ block.links) :
    target.HangsOff inner id :=
  wellFormed.linked (id, block) (Target.mem_blockList_of_block? found) inner refers

theorem nodup_links (found : target.block? id = some block) : block.links.Nodup :=
  (List.nodup_flatMap.mp wellFormed.once).1 (id, block) (Target.mem_blockList_of_block? found)

theorem orphan (found : target.block? id = some block)
    (isRoot : block.isHat = true ∨ block.opcode = definitionOpcode) : block.parent = none :=
  wellFormed.root (id, block) (Target.mem_blockList_of_block? found) isRoot

theorem orphan_of_isEntry (found : target.block? id = some block) (isEntry : block.isEntry = true) :
    block.parent = none := by
  refine wellFormed.orphan found ?_
  simp only [Block.isEntry, Bool.or_eq_true, Bool.and_eq_true, beq_iff_eq] at isEntry
  exact isEntry.imp And.right fun opcode => opcode

/-- What follows a block is in none of its slots. -/
theorem next_ne_slot (found : target.block? id = some block) {name : String}
    (held : block.inputBlock? name = some inner) : block.next ≠ some inner := by
  intro next
  have apart := (List.nodup_append.mp (wellFormed.nodup_links found)).2.2
  refine apart inner (by simp [next]) inner (List.mem_filterMap.mpr ⟨name, ?_, held⟩) rfl
  exact Block.mem_inputs_keys held

/-- No block is below itself through others. -/
theorem not_loop : ¬ TransGen target.HangsOff id id := by
  intro loop
  exact wellFormed.ends.transGen.irrefl.irrefl id (transGen_swap.mpr loop)

end WellFormed

theorem leadsTo_succ {blocks : Table BlockEntry} {hops : Nat} {start : Option String}
    (leads : leadsTo blocks root hops start = true) : leadsTo blocks root (hops + 1) start = true := by
  induction hops generalizing start with
  | zero => simp [leadsTo] at leads
  | succ hops ih =>
      cases start with
      | none => simp [leadsTo] at leads
      | some id =>
          simp only [leadsTo, Bool.or_eq_true] at leads ⊢
          exact leads.imp_right ih

theorem leadsTo_of_le {blocks : Table BlockEntry} {hops more : Nat} {start : Option String}
    (le : hops ≤ more) (leads : leadsTo blocks root hops start = true) :
    leadsTo blocks root more start = true := by
  induction le with
  | refl => exact leads
  | step _ ih => exact leadsTo_succ ih

theorem below_of_leadsTo {hops : Nat} (leads : leadsTo target.blocks root hops (some id) = true) :
    target.Below id root := by
  induction hops generalizing id with
  | zero => simp [leadsTo] at leads
  | succ hops ih =>
      simp only [leadsTo, Bool.or_eq_true, beq_iff_eq] at leads
      rcases leads with rfl | leads
      · exact .refl
      · cases found : target.block? id with
        | none =>
            rw [show blockIn target.blocks id = none from found, Option.bind_none, leadsTo_none] at leads
            cases leads
        | some block =>
            rw [show blockIn target.blocks id = some block from found, Option.bind_some] at leads
            cases isParent : block.parent with
            | none =>
                rw [isParent, leadsTo_none] at leads
                cases leads
            | some parent =>
                rw [isParent] at leads
                exact .head ⟨block, found, isParent⟩ (ih leads)

theorem leadsTo_of_path {path : List String} (chain : (id :: path).IsChain target.HangsOff)
    (last : (id :: path).getLast (by simp) = root) :
    leadsTo target.blocks root (path.length + 1) (some id) = true := by
  induction path generalizing id with
  | nil =>
      obtain rfl : id = root := last
      simp [leadsTo]
  | cons parent path ih =>
      obtain ⟨⟨block, found, isParent⟩, rest⟩ := List.isChain_cons_cons.mp chain
      have leads := ih rest (by simpa using last)
      rw [leadsTo, show blockIn target.blocks id = some block from found, Option.bind_some, isParent]
      simp [leads]

/-- A block that is below another one reaches it on a way without repetition. -/
theorem Below.exists_path (below : target.Below id root) :
    ∃ path, (id :: path).IsChain target.HangsOff ∧ (id :: path).getLast (by simp) = root ∧
      (id :: path).Nodup := by
  induction below using ReflTransGen.head_induction_on with
  | refl => exact ⟨[], by simp, rfl, by simp⟩
  | @head id parent hangs _ ih =>
      obtain ⟨path, chain, last, distinct⟩ := ih
      by_cases again : id ∈ parent :: path
      · -- the way comes back to `id`: what is behind that place is a way as well
        obtain ⟨round, rest, split⟩ := List.append_of_mem again
        have behind : (id :: rest) <:+ (parent :: path) := ⟨round, split.symm⟩
        refine ⟨rest, chain.suffix behind, ?_, distinct.sublist behind.sublist⟩
        rw [← last, behind.getLast]
      · exact ⟨parent :: path, List.isChain_cons_cons.mpr ⟨hangs, chain⟩, by simpa using last,
          List.nodup_cons.mpr ⟨again, distinct⟩⟩

/-- A way without repetition is no longer than the table. -/
theorem length_le_size {start : String} {path : List String}
    (chain : (start :: path).IsChain target.HangsOff) (distinct : (start :: path).Nodup) :
    path.length ≤ target.blocks.size := by
  have within : (start :: path).dropLast ⊆ target.blocks.keys := by
    intro id mem
    obtain ⟨block, found⟩ := exists_of_mem_dropLast chain id mem
    exact Table.mem_keys_of_get? (Target.block?_eq_some.mp found)
  have bound := (List.subperm_of_subset (distinct.sublist (List.dropLast_sublist _)) within).length_le
  simpa [Table.keys, Table.size] using bound

/-- As many hops as the table has entries, and one more, reach whatever a block is below. -/
theorem leadsTo_of_below (below : target.Below id root) :
    leadsTo target.blocks root (target.blocks.size + 1) (some id) = true := by
  obtain ⟨path, chain, last, distinct⟩ := below.exists_path
  have bound := length_le_size chain distinct
  exact leadsTo_of_le (by omega) (leadsTo_of_path chain last)

/-- The script of a block is what is below it. -/
theorem mem_scriptBlocks (distinct : target.blocks.keys.Nodup) :
    id ∈ scriptBlocks target.blocks root ↔ (∃ block, target.block? id = some block) ∧
      target.Below id root := by
  rw [StepCode.mem_scriptBlocks distinct]
  constructor
  · rintro ⟨block, found, rfl | leads⟩
    · exact ⟨⟨block, found⟩, .refl⟩
    · cases isParent : block.parent with
      | none =>
          rw [isParent, leadsTo_none] at leads
          cases leads
      | some parent =>
          rw [isParent] at leads
          exact ⟨⟨block, found⟩, .head ⟨block, found, isParent⟩ (below_of_leadsTo leads)⟩
  · rintro ⟨⟨block, found⟩, below⟩
    refine ⟨block, found, ?_⟩
    rcases below.cases_head with same | ⟨parent, ⟨_, same, isParent⟩, rest⟩
    · exact .inl same
    · obtain rfl := Option.some.inj (found.symm.trans same)
      exact .inr (isParent ▸ leadsTo_of_below rest)

theorem WellFormed.mem_scriptBlocks (wellFormed : target.WellFormed) :
    id ∈ scriptBlocks target.blocks root ↔ (∃ block, target.block? id = some block) ∧
      target.Below id root :=
  Target.mem_scriptBlocks wellFormed.distinct

/-- The script of `root` holds, in table order and once each, the ids of the blocks that are `root` or
from which going from parent to parent comes to `root`, whatever else the parent links do; and more
hops than are allowed would find no other. -/
theorem scripts_hold_what_leads_to_the_root (distinct : target.blocks.keys.Nodup) (root : String) :
    (scriptBlocks target.blocks root).Sublist target.blocks.keys ∧
      (scriptBlocks target.blocks root).Nodup ∧
      (∀ id, id ∈ scriptBlocks target.blocks root ↔
        (∃ block, target.block? id = some block) ∧
          (id = root ∨ TransGen target.HangsOff id root)) ∧
      ∀ hops start, leadsTo target.blocks root hops start = true →
        leadsTo target.blocks root (target.blocks.size + 1) start = true := by
  refine ⟨List.Sublist.map Prod.fst List.filter_sublist, nodup_scriptBlocks distinct root,
    fun id => ?_, fun hops start leads => ?_⟩
  · rw [mem_scriptBlocks distinct, Below, reflTransGen_iff_eq_or_transGen, eq_comm]
  · cases start with
    | none => simp [leadsTo_none] at leads
    | some id => exact leadsTo_of_below (below_of_leadsTo leads)

/-- A block that hangs off `parent`. -/
def hanging (parent : String) : BlockEntry :=
  .block { Block.bare "looks_say" with parent := some parent }

/-- Three blocks in a circle and one that hangs off it, a block that hangs off a loose reporter, and one
whose parent is missing. -/
def circleTarget : Target where
  isStage := true
  name := "Stage"
  vars := .empty
  blocks := .ofList [("d", hanging "a"), ("a", hanging "b"), ("b", hanging "c"), ("c", hanging "a"),
    ("loose", .primitive []), ("e", hanging "loose"), ("f", hanging "missing")]
  comments := .empty
  extra := .empty

/-- The circle is the script of each of its blocks, with what hangs off it; a loose reporter and a
missing block have scripts that they are not in. -/
theorem scripts_of_circleTarget :
    circleTarget.blocks.keys.Nodup ∧
      scriptBlocks circleTarget.blocks "b" = ["d", "a", "b", "c"] ∧
      TransGen circleTarget.HangsOff "d" "b" ∧ ¬ TransGen circleTarget.HangsOff "a" "d" ∧
      scriptBlocks circleTarget.blocks "loose" = ["e"] ∧
      TransGen circleTarget.HangsOff "f" "missing" := by
  have distinct : circleTarget.blocks.keys.Nodup := by decide
  have leads (root id : String) (other : id ≠ root) (mem : id ∈ scriptBlocks circleTarget.blocks root) :
      TransGen circleTarget.HangsOff id root :=
    (((scripts_hold_what_leads_to_the_root distinct root).2.2.1 id).mp mem).2.resolve_left other
  refine ⟨distinct, by decide, leads "b" "d" (by decide) (by decide), fun below => ?_, by decide,
    leads "missing" "f" (by decide) (by decide)⟩
  have mem := ((scripts_hold_what_leads_to_the_root distinct "d").2.2.1 "a").mpr
    ⟨Option.isSome_iff_exists.mp (by decide), .inr below⟩
  exact absurd mem (by decide)

/-! ## Compiling ends -/

open Lowering in
/-- A chain comes to blocks that are below its first one. -/
theorem WellFormed.below_of_meets {place : Place} (wellFormed : place.target.WellFormed) {room : Nat}
    {first : String} (met : Meets place room (some first) id) : place.target.Below id first := by
  generalize isFirst : some first = start at met
  induction met generalizing first with
  | here found =>
      obtain rfl := Option.some.inj isFirst
      exact .refl
  | @later room here other block depth stmt found code rest ih =>
      obtain rfl := Option.some.inj isFirst
      cases next : block.next with
      | none =>
          rw [next] at rest
          exact absurd rest Meets.not_none
      | some follower =>
          have hangs := wellFormed.hangsOff found (Block.mem_links.mpr (.inl next))
          exact (ih next.symm).tail hangs

open Lowering in
/-- Lowering goes down from block to block. -/
theorem WellFormed.hangsOff_of_opens {place : Place} (wellFormed : place.target.WellFormed)
    {node inner : Node} (opens : Opens place node inner) :
    TransGen place.target.HangsOff inner.id node.id := by
  cases opens with
  | reporterSlot found _ _ held _ =>
      exact .single (wellFormed.hangsOff found (Block.mem_links.mpr (.inr ⟨_, held⟩)))
  | statementSlot found _ _ held _ =>
      exact .single (wellFormed.hangsOff found (Block.mem_links.mpr (.inr ⟨_, held⟩)))
  | @stack id inner name block before after found _ _ _ met =>
      cases held : block.inputBlock? name with
      | none =>
          rw [held] at met
          exact absurd met Meets.not_none
      | some first =>
          rw [held] at met
          have hangs := wellFormed.hangsOff found (Block.mem_links.mpr (.inr ⟨name, held⟩))
          exact TransGen.tail' (wellFormed.below_of_meets met) hangs

open Lowering in
/-- Lowering never comes to a block that it is still lowering. -/
theorem WellFormed.not_reenters {place : Place} (wellFormed : place.target.WellFormed)
    {first : Option String} : ¬ Reenters place first := by
  rintro ⟨id, -, again, -, loop⟩
  have down : ∀ {node inner : Node}, TransGen (Opens place) node inner →
      TransGen place.target.HangsOff inner.id node.id := by
    intro node inner steps
    induction steps with
    | single opens => exact wellFormed.hangsOff_of_opens opens
    | tail _ opens ih => exact (wellFormed.hangsOff_of_opens opens).trans ih
  exact wellFormed.not_loop (down loop)

/-- A well-formed target is compiled: each unit has step code or a reason why there is none. -/
theorem WellFormed.exists_results (wellFormed : target.WellFormed) :
    ∃ results, target.compile? = some results := by
  cases compiled : target.compile? with
  | some results => exact ⟨results, rfl⟩
  | none =>
      obtain ⟨body, mem, reenters⟩ := Target.compile?_eq_none.mp compiled
      have isTarget : body.place.target = target := Target.target_of_mem_bodies mem
      exact absurd reenters (WellFormed.not_reenters (isTarget.symm ▸ wellFormed))

end Target

end StepCode
