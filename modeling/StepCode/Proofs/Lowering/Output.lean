import StepCode.Compiled.OfTarget
import StepCode.Proofs.Decimal.ReadBack
import StepCode.Proofs.Lowering.Rules
import StepCode.Proofs.Script.Printing
import StepCode.Proofs.Tables

/-!
# What lowering produces

The step code of every body can be written down and read again, and calls only helpers that are
shipped with it.  Numbers are the ones that literals of the target spell.
-/

namespace StepCode

open Lowering

/-- What the literals of a block hold: those in its slots, and the field of a number block. -/
def Block.literals (block : Block) : List Json :=
  block.inputs.keys.filterMap (fun name =>
    match block.input? name with
    | some (.literal _ payload) => some (payload.headD .null)
    | _ => none) ++ (block.field? "NUM").toList

/-- The numbers that the literals of a target spell. -/
def Target.literalNumbers (target : Target) : List Float :=
  (target.blockList.flatMap fun entry => entry.2.literals).filterMap fun content =>
    match Value.numericLiteral content with
    | .number x => some x
    | _ => none

/-- The helpers that step code may call. -/
def shippedNames : List String :=
  ["compare_equal", "less_than", "greater_than", "is_stuck", "modulo"]

/-- The expression can be written and calls shipped helpers only. -/
structure Expr.Sound (expr : Expr) : Prop where
  wellFormed : expr.WellFormed
  shipped : ∀ name ∈ expr.helperCalls, name ∈ shippedNames

/-- The statement can be written and calls shipped helpers only. -/
structure Stmt.Sound (stmt : Stmt) : Prop where
  wellFormed : stmt.WellFormed
  shipped : ∀ name ∈ stmt.helperCalls, name ∈ shippedNames

structure BodySound (body : List Stmt) : Prop where
  wellFormed : StmtsWellFormed body
  shipped : ∀ name ∈ helperCallsBody body, name ∈ shippedNames

theorem exprsWellFormed_of_forall {args : List Expr} (sound : ∀ arg ∈ args, arg.Sound) :
    ExprsWellFormed args ∧ ∀ name ∈ helperCallsList args, name ∈ shippedNames := by
  induction args with
  | nil => exact ⟨trivial, by simp [helperCallsList]⟩
  | cons arg args ih =>
      obtain ⟨wellFormed, shipped⟩ := ih fun other mem => sound other (by simp [mem])
      have here := sound arg (by simp)
      exact ⟨⟨here.wellFormed, wellFormed⟩, List.forall_mem_append.mpr ⟨here.shipped, shipped⟩⟩

theorem argsWellFormed_of_forall {args : List (String × Expr)} (sound : ∀ arg ∈ args, arg.2.Sound) :
    ArgsWellFormed args ∧ ∀ name ∈ helperCallsArgs args, name ∈ shippedNames := by
  induction args with
  | nil => exact ⟨trivial, by simp [helperCallsArgs]⟩
  | cons arg args ih =>
      obtain ⟨wellFormed, shipped⟩ := ih fun other mem => sound other (by simp [mem])
      have here := sound arg (by simp)
      exact ⟨⟨here.wellFormed, wellFormed⟩, List.forall_mem_append.mpr ⟨here.shipped, shipped⟩⟩

theorem BodySound.nil : BodySound [] := ⟨trivial, by simp [helperCallsBody]⟩

theorem BodySound.cons {stmt : Stmt} {body : List Stmt} (first : stmt.Sound) (rest : BodySound body) :
    BodySound (stmt :: body) where
  wellFormed := ⟨first.wellFormed, rest.wellFormed⟩
  shipped := List.forall_mem_append.mpr ⟨first.shipped, rest.shipped⟩

theorem BodySound.append {body others : List Stmt} (first : BodySound body)
    (second : BodySound others) : BodySound (body ++ others) := by
  induction body with
  | nil => exact second
  | cons stmt body ih =>
      obtain ⟨here, rest⟩ := List.forall_mem_append.mp first.shipped
      exact .cons ⟨first.wellFormed.1, here⟩ (ih ⟨first.wellFormed.2, rest⟩)

theorem Expr.sound_text (s : String) : (Expr.text s).Sound := ⟨trivial, by simp [Expr.helperCalls]⟩

theorem Expr.sound_number {x : Float} (finite : x.isFinite = true) : (Expr.number x).Sound :=
  ⟨Number.readsBack_of_isFinite finite, by simp [Expr.helperCalls]⟩

theorem Expr.sound_var (name : String) : (Expr.var name).Sound := ⟨trivial, by simp [Expr.helperCalls]⟩

theorem Number.isFinite_zero : (0.0 : Float).isFinite = true := by decide

namespace Lowering

/-! ## Reporters -/

/-- Operators get as many operands as they take. -/
theorem accepts_of_ofOpcode {opcode : String} {op : Builtin} {slots : List String}
    (form : ReporterForm.ofOpcode opcode = .builtin op slots) :
    op.arity.accepts slots.length = true := by
  unfold ReporterForm.ofOpcode at form
  split at form <;> cases form <;> rfl

theorem helper_of_ofOpcode {opcode name : String} {slots : List String}
    (form : ReporterForm.ofOpcode opcode = .helper name slots) :
    IsSymbol name ∧ name ∈ shippedNames := by
  unfold ReporterForm.ofOpcode at form
  split at form <;> cases form <;> exact ⟨by decide, by simp [shippedNames]⟩

theorem outside_of_ofOpcode {opcode : String} {outside : Expr}
    (form : ReporterForm.ofOpcode opcode = .param outside) : outside.Sound := by
  unfold ReporterForm.ofOpcode at form
  split at form <;> cases form
  · exact Expr.sound_number Number.isFinite_zero
  · exact ⟨trivial, by simp [Expr.helperCalls]⟩

variable {place : Place}

/-- A literal of a block that stands in the target. -/
theorem mem_literalNumbers {target : Target} {id : String} {block : Block} {content : Json}
    {x : Float} (found : target.block? id = some block) (mem : content ∈ block.literals)
    (spells : Value.numericLiteral content = .number x) : x ∈ target.literalNumbers := by
  refine List.mem_filterMap.mpr ⟨content, ?_, by simp [spells]⟩
  exact List.mem_flatMap.mpr ⟨(id, block), Target.mem_blockList_of_block? found, mem⟩

theorem mem_literals_of_input? {block : Block} {name : String} {kind : Nat} {payload : List Json}
    (held : block.input? name = some (.literal kind payload)) :
    payload.headD .null ∈ block.literals := by
  have stored := Block.mem_keys_of_input? held
  exact List.mem_append_left _ (List.mem_filterMap.mpr ⟨name, stored, by simp [held]⟩)

/-- The number literals of the target of a place are finite. -/
def Place.FiniteNumbers (place : Place) : Prop :=
  ∀ x ∈ place.target.literalNumbers, x.isFinite = true

theorem numberLiteral_sound {content : Json}
    (finite : ∀ x, Value.numericLiteral content = .number x → x.isFinite = true) :
    (numberLiteral content).Sound := by
  unfold numberLiteral
  split
  next x spells => exact Expr.sound_number (finite x spells)
  next => exact Expr.sound_text _

theorem literal_sound {kind : Nat} {payload : List Json} {expr : Expr}
    (finite : ∀ x, Value.numericLiteral (payload.headD .null) = .number x → x.isFinite = true)
    (lowers : LiteralLowers kind payload expr) : expr.Sound := by
  cases lowers with
  | number => exact numberLiteral_sound finite
  | text => exact Expr.sound_text _
  | var => exact Expr.sound_var _

theorem input_sound (numbers : place.FiniteNumbers) {lower : Block → Lowered Expr}
    (sound : ∀ id block expr, place.target.block? id = some block → lower block = .ok expr →
      expr.Sound)
    {id : String} {block : Block} (found : place.target.block? id = some block) {name : String}
    {expr : Expr} (lowered : input place lower block name = .ok expr) : expr.Sound := by
  cases input_eq_ok.mp lowered with
  | missing => exact Expr.sound_text _
  | empty => exact Expr.sound_text _
  | literal held spelled =>
      refine literal_sound (fun x spells => numbers x ?_) spelled
      exact mem_literalNumbers found (mem_literals_of_input? held) spells
  | block _ exist inner => exact sound _ _ expr exist inner

theorem sound_of_mapM {slot : String → Lowered Expr}
    (sound : ∀ name expr, slot name = .ok expr → expr.Sound) {slots : List String}
    {args : List Expr} (lowered : slots.mapM slot = .ok args) : ∀ arg ∈ args, arg.Sound := by
  intro arg mem
  obtain ⟨name, -, ok⟩ := exists_of_mem_mapM lowered mem
  exact sound name arg ok

theorem sound_of_arguments {slot : String → Lowered Expr}
    (sound : ∀ name expr, slot name = .ok expr → expr.Sound) {block : Block}
    {args : List (String × Expr)} (lowered : arguments slot block = .ok args) :
    ∀ arg ∈ args, arg.2.Sound := by
  intro arg mem
  rcases mem_arguments lowered mem with ⟨-, held⟩ | inFields
  · exact sound arg.1 arg.2 held
  · obtain ⟨name, -, rfl⟩ := List.mem_map.mp inFields
    exact Expr.sound_text _

theorem reporter_sound (numbers : place.FiniteNumbers) {slot : String → Lowered Expr}
    (sound : ∀ name expr, slot name = .ok expr → expr.Sound) {id : String} {block : Block}
    (found : place.target.block? id = some block) {expr : Expr}
    (lowered : reporter place slot block = .ok expr) : expr.Sound := by
  cases reporter_eq_ok.mp lowered with
  | number _ held =>
      refine numberLiteral_sound fun x spells => numbers x (mem_literalNumbers found ?_ spells)
      simp [Block.literals, held]
  | noNumber => exact Expr.sound_number Number.isFinite_zero
  | text => exact Expr.sound_text _
  | param form =>
      split
      · exact ⟨trivial, by simp [Expr.helperCalls]⟩
      · exact outside_of_ofOpcode form
  | var => exact Expr.sound_var _
  | builtin form filled =>
      obtain ⟨wellFormed, shipped⟩ := exprsWellFormed_of_forall (sound_of_mapM sound filled)
      have count := (mapM_eq_ok.mp filled).length_eq
      exact ⟨⟨count ▸ accepts_of_ofOpcode form, wellFormed⟩, shipped⟩
  | helper form filled =>
      obtain ⟨wellFormed, shipped⟩ := exprsWellFormed_of_forall (sound_of_mapM sound filled)
      obtain ⟨isSymbol, mem⟩ := helper_of_ofOpcode form
      refine ⟨⟨isSymbol, wellFormed⟩, fun other called => ?_⟩
      rcases List.mem_cons.mp called with rfl | called
      · exact mem
      · exact shipped other called
  | block _ filled =>
      obtain ⟨wellFormed, shipped⟩ := argsWellFormed_of_forall (sound_of_arguments sound filled)
      exact ⟨wellFormed, shipped⟩

theorem reported_sound (numbers : place.FiniteNumbers) (depth : Nat) {id : String}
    {block : Block} (found : place.target.block? id = some block) {expr : Expr}
    (lowered : reported place depth block = .ok expr) : expr.Sound := by
  induction depth generalizing id block expr with
  | zero => simp [reported] at lowered
  | succ depth ih =>
      refine reporter_sound numbers (fun name expr slot => ?_) found lowered
      exact input_sound numbers (fun id block expr found => ih found) found slot

/-! ## Statements -/

theorem Place.pause_sound (place : Place) : place.pause.Sound := by
  unfold Place.pause
  split
  · exact ⟨⟨⟨by decide, trivial⟩, ⟨trivial, trivial⟩, trivial⟩,
      by simp [Stmt.helperCalls, Expr.helperCalls, helperCallsList, helperCallsBody, shippedNames]⟩
  · exact ⟨trivial, by simp [Stmt.helperCalls]⟩

/-- Slots and substacks of a statement are sound. -/
structure PartsSound (slot : String → Lowered Expr) (stack : String → Lowered (List Stmt)) :
    Prop where
  slot : ∀ name expr, slot name = .ok expr → expr.Sound
  stack : ∀ name body, stack name = .ok body → BodySound body

/-- An iteration of a loop: its substack and the pause. -/
theorem PartsSound.iteration {slot : String → Lowered Expr} {stack : String → Lowered (List Stmt)}
    (sound : PartsSound slot stack) (place : Place) {name : String} {body : List Stmt}
    (inner : stack name = .ok body) : BodySound (body ++ [place.pause]) :=
  (sound.stack _ _ inner).append (.cons place.pause_sound .nil)

theorem statement_sound {slot : String → Lowered Expr} {stack : String → Lowered (List Stmt)}
    (sound : PartsSound slot stack) {block : Block} {stmt : Stmt}
    (lowered : statement place slot stack block = .ok stmt) : stmt.Sound := by
  cases statement_eq_ok.mp lowered with
  | set _ _ held =>
      have value := sound.slot _ _ held
      exact ⟨value.wellFormed, value.shipped⟩
  | change _ _ held =>
      have amount := sound.slot _ _ held
      exact ⟨amount.wellFormed, amount.shipped⟩
  | times _ held inner =>
      have count := sound.slot _ _ held
      have body := sound.iteration place inner
      exact ⟨⟨count.wellFormed, body.wellFormed⟩,
        List.forall_mem_append.mpr ⟨count.shipped, body.shipped⟩⟩
  | forever _ inner =>
      have body := sound.iteration place inner
      exact ⟨body.wellFormed, body.shipped⟩
  | untilTrue _ held inner =>
      have cond := sound.slot _ _ held
      have body := sound.iteration place inner
      exact ⟨⟨cond.wellFormed, body.wellFormed⟩,
        List.forall_mem_append.mpr ⟨cond.shipped, body.shipped⟩⟩
  | whileTrue _ held inner =>
      have cond := sound.slot _ _ held
      have body := sound.iteration place inner
      exact ⟨⟨cond.wellFormed, body.wellFormed⟩,
        List.forall_mem_append.mpr ⟨cond.shipped, body.shipped⟩⟩
  | branches _ held first second =>
      have cond := sound.slot _ _ held
      have yes := sound.stack _ _ first
      have no := sound.stack _ _ second
      exact ⟨⟨cond.wellFormed, yes.wellFormed, no.wellFormed⟩, List.forall_mem_append.mpr
        ⟨List.forall_mem_append.mpr ⟨cond.shipped, yes.shipped⟩, no.shipped⟩⟩
  | ret => exact ⟨trivial, by simp [Stmt.helperCalls]⟩
  | call _ _ _ filled =>
      obtain ⟨wellFormed, shipped⟩ := exprsWellFormed_of_forall (sound_of_mapM sound.slot filled)
      refine ⟨⟨?_, wellFormed⟩, shipped⟩
      split <;> simp
  | op _ _ filled =>
      obtain ⟨wellFormed, shipped⟩ := argsWellFormed_of_forall (sound_of_arguments sound.slot filled)
      exact ⟨wellFormed, shipped⟩

/-- The blocks of a chain, given what lowering each of them produces. -/
theorem follow_sound {lower : Block → Lowered Stmt}
    (sound : ∀ id block stmt, place.target.block? id = some block → lower block = .ok stmt →
      stmt.Sound)
    {room : Nat} {first : Option String} {body : List Stmt}
    (lowered : follow place lower room first = .ok body) : BodySound body := by
  induction follow_eq_ok.mp lowered with
  | nil => exact .nil
  | cons found here behind ih => exact .cons (sound _ _ _ found here) (ih (follow_eq_ok.mpr behind))

theorem nested_sound (numbers : place.FiniteNumbers) (depth : Nat) {id : String} {block : Block}
    (found : place.target.block? id = some block) {stmt : Stmt}
    (lowered : nested place depth block = .ok stmt) : stmt.Sound := by
  induction depth generalizing id block stmt with
  | zero => simp [nested] at lowered
  | succ depth ih =>
      refine statement_sound ⟨fun name expr held => ?_, fun name body held => ?_⟩ lowered
      · exact input_sound numbers (fun id block expr found => reported_sound numbers depth found) found
          held
      · exact follow_sound (fun id block stmt found => ih found) held

/-- The step code of a chain can be written and calls shipped helpers only. -/
theorem chain_sound (numbers : place.FiniteNumbers) {first : Option String} {body : List Stmt}
    (lowered : chain place first = .ok body) : BodySound body :=
  follow_sound (fun _ _ _ found => nested_sound numbers _ found) lowered

end Lowering

end StepCode
