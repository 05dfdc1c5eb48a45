import StepCode.Proofs.Routine.Flattening

/-!
# Numbered bodies unfold

Numbering the bodies of a script loses nothing of it.  A body comes in front of the bodies that its
statements hold, each body but the first is held once, and with the bodies back in place of their numbers
the script is there again.
-/

namespace StepCode

/-! ## Bodies in place of numbers -/

/-- The statement again, if `bodyOf?` gives the statements that stand under its numbers. -/
def Instr.unfoldWith? (bodyOf? : Nat → Option (List Stmt)) : Instr → Option Stmt
  | .set var value => some (.set var value)
  | .change var amount => some (.change var amount)
  | .op opcode args => some (.op opcode args)
  | .call signature args => some (.call signature args)
  | .yield => some .yield
  | .times count body => return .times count (← bodyOf? body)
  | .forever body => return .forever (← bodyOf? body)
  | .whileTrue cond body => return .whileTrue cond (← bodyOf? body)
  | .untilTrue cond body => return .untilTrue cond (← bodyOf? body)
  | .ifElse cond yes no => return .ifElse cond (← bodyOf? yes) (← bodyOf? no)
  | .ret value => some (.ret value)

namespace Routine

/-- The numbers of the bodies that the statements hold, as often as they are held. -/
def mentioned (instrs : List Instr) : List Nat := instrs.flatMap Instr.bodies

def allMentioned (bodies : List (List Instr)) : List Nat := bodies.flatMap mentioned

/-- A statement of the body `id` holds the body `child`. -/
def Encloses (bodies : List (List Instr)) (id child : Nat) : Prop :=
  ∃ body, bodies[id]? = some body ∧ child ∈ mentioned body

/-- The script that the bodies stand for from `id` on.  There is none if a body is missing, or if one
does not come behind the body that holds it. -/
def unfoldFrom? (bodies : List (List Instr)) (id : Nat) : Option (List Stmt) :=
  if _inside : id < bodies.length then
    bodies[id].mapM (Instr.unfoldWith? fun child =>
      if _behind : id < child then unfoldFrom? bodies child else none)
  else none
termination_by bodies.length - id

/-- The script of a body behind the body `id`. -/
def unfoldBehind? (bodies : List (List Instr)) (id child : Nat) : Option (List Stmt) :=
  if id < child then unfoldFrom? bodies child else none

theorem unfoldFrom?_of_lt {bodies : List (List Instr)} {id : Nat} (inside : id < bodies.length) :
    unfoldFrom? bodies id =
      ((bodies[id]?).getD []).mapM (Instr.unfoldWith? (unfoldBehind? bodies id)) := by
  rw [unfoldFrom?, dif_pos inside, List.getElem?_eq_getElem inside]
  rfl

/-! ## The order of bodies -/

/-- A body comes in front of the bodies that its statements hold, and these are there. -/
def Ascending (bodies : List (List Instr)) : Prop :=
  ∀ id child, Encloses bodies id child → id < child ∧ child < bodies.length

namespace Ascending

variable {bodies : List (List Instr)} {id child : Nat} {instrs : List Instr}

theorem append_nil (ascends : Ascending bodies) : Ascending (bodies ++ [[]]) := by
  rintro id child ⟨body, found, mem⟩
  rw [List.length_append]
  by_cases before : id < bodies.length
  · rw [List.getElem?_append_left before] at found
    obtain ⟨behind, inside⟩ := ascends id child ⟨body, found, mem⟩
    exact ⟨behind, by omega⟩
  · rw [List.getElem?_append_right (by omega)] at found
    obtain rfl := List.mem_singleton.mp (List.mem_of_getElem? found)
    cases mem

theorem set (ascends : Ascending bodies)
    (behind : ∀ child ∈ mentioned instrs, id < child ∧ child < bodies.length) :
    Ascending (bodies.set id instrs) := by
  rintro other child ⟨body, found, mem⟩
  rw [List.length_set]
  rw [List.getElem?_set] at found
  split at found
  next same =>
    split at found
    next =>
      obtain rfl := Option.some.inj found
      exact same ▸ behind child mem
    next => cases found
  next => exact ascends other child ⟨body, found, mem⟩

/-- There is no endless way from a body to the bodies in it. -/
theorem wellFounded_inward (ascends : Ascending bodies) :
    WellFounded fun child id => Encloses bodies id child := by
  refine Subrelation.wf (fun {child id} encloses => ?_)
    (InvImage.wf (fun id => bodies.length - id) Nat.lt_wfRel.wf)
  have order := ascends id child encloses
  change bodies.length - child < bodies.length - id
  omega

/-- There is no endless way from a body to those around it. -/
theorem wellFounded_outward (ascends : Ascending bodies) : WellFounded (Encloses bodies) :=
  Subrelation.wf (fun encloses => (ascends _ _ encloses).1) Nat.lt_wfRel.wf

/-- What the statements of a body hold is behind the body. -/
theorem behind (ascends : Ascending bodies) (id : Nat) :
    ∀ child ∈ mentioned ((bodies[id]?).getD []), id < child ∧ child < bodies.length := by
  intro child mem
  cases found : bodies[id]? with
  | none =>
      rw [found] at mem
      cases mem
  | some body =>
      rw [found] at mem
      exact ascends id child ⟨body, found, mem⟩

end Ascending

/-! ## Unfolding -/

section

variable {bodies : List (List Instr)} {id child : Nat}

theorem unfoldBehind?_eq_some {stmts : List Stmt} (order : id < child ∧ child < bodies.length)
    (unfolds : ((bodies[child]?).getD []).mapM (Instr.unfoldWith? (unfoldBehind? bodies child)) =
      some stmts) : unfoldBehind? bodies id child = some stmts := by
  rw [unfoldBehind?, if_pos order.1, unfoldFrom?_of_lt order.2, unfolds]

-- The induction is on the script.  The order of the bodies only tells that unfolding may go on in those
-- that a statement holds.
mutual

/-- Statements that hold a script unfold to it, if the bodies in them come behind the one they are in. -/
theorem unfolds_of_holds (ascends : Ascending bodies) (stmts : List Stmt) {id : Nat}
    {instrs : List Instr} (behind : ∀ child ∈ mentioned instrs, id < child ∧ child < bodies.length)
    (holds : Holds (fun id => (bodies[id]?).getD []) stmts instrs) :
    instrs.mapM (Instr.unfoldWith? (unfoldBehind? bodies id)) = some stmts := by
  match stmts with
  | [] =>
      obtain rfl : instrs = [] := by rwa [Holds] at holds
      rfl
  | stmt :: rest =>
      rw [Holds] at holds
      obtain ⟨instr, others, rfl, here, later⟩ := holds
      rw [mentioned, List.flatMap_cons, List.forall_mem_append] at behind
      rw [List.mapM_cons, unfolds_of_holdsStmt ascends stmt behind.1 here,
        unfolds_of_holds ascends rest behind.2 later]
      rfl

theorem unfolds_of_holdsStmt (ascends : Ascending bodies) (stmt : Stmt) {id : Nat} {instr : Instr}
    (behind : ∀ child ∈ instr.bodies, id < child ∧ child < bodies.length)
    (holds : HoldsStmt (fun id => (bodies[id]?).getD []) stmt instr) :
    instr.unfoldWith? (unfoldBehind? bodies id) = some stmt := by
  match stmt with
  | .set _ _ | .change _ _ | .op _ _ | .call _ _ | .yield | .ret _ =>
      rw [HoldsStmt] at holds
      rw [holds, Instr.unfoldWith?]
  | .times _ body | .forever body | .whileTrue _ body | .untilTrue _ body =>
      rw [HoldsStmt] at holds
      obtain ⟨child, rfl, inner⟩ := holds
      have unfolds := unfolds_of_holds ascends body (ascends.behind child) inner
      rw [Instr.unfoldWith?, unfoldBehind?_eq_some (behind child (by simp [Instr.bodies])) unfolds]
      rfl
  | .ifElse cond yes no =>
      rw [HoldsStmt] at holds
      obtain ⟨child, other, rfl, first, second⟩ := holds
      have unfoldsYes := unfolds_of_holds ascends yes (ascends.behind child) first
      have unfoldsNo := unfolds_of_holds ascends no (ascends.behind other) second
      rw [Instr.unfoldWith?, unfoldBehind?_eq_some (behind child (by simp [Instr.bodies])) unfoldsYes,
        unfoldBehind?_eq_some (behind other (by simp [Instr.bodies])) unfoldsNo]
      rfl

end

end

/-! ## Numbers that are given -/

/-- Numbering has put new bodies behind those that were there.  What it gives back holds the bodies
`outermost` of them, and the statements of the new bodies hold each of the others once. -/
structure Allots (bodies later : List (List Instr)) (outermost : List Nat) : Prop where
  grows : Grows bodies later
  among : ∀ id ∈ outermost, bodies.length ≤ id ∧ id < later.length
  ascends : Ascending bodies → Ascending later
  once : ∀ id, outermost.count id + (allMentioned later).count id =
    (allMentioned bodies).count id + if bodies.length ≤ id ∧ id < later.length then 1 else 0

theorem count_allMentioned_append_nil (bodies : List (List Instr)) (id : Nat) :
    (allMentioned (bodies ++ [[]])).count id = (allMentioned bodies).count id := by
  simp [allMentioned, mentioned]

/-- A body that is filled mentions the bodies that its statements hold. -/
theorem count_allMentioned_set {bodies : List (List Instr)} {place : Nat} (instrs : List Instr)
    (id : Nat) (empty : bodies[place]? = some []) :
    (allMentioned (bodies.set place instrs)).count id =
      (mentioned instrs).count id + (allMentioned bodies).count id := by
  induction bodies generalizing place with
  | nil => cases empty
  | cons first rest ih =>
      cases place with
      | zero =>
          obtain rfl := Option.some.inj empty
          simp [allMentioned, mentioned]
      | succ place =>
          have filled := ih empty
          simp only [allMentioned] at filled
          simp only [allMentioned, List.set_cons_succ, List.flatMap_cons, List.count_append, filled]
          omega

namespace Allots

variable {bodies middle later : List (List Instr)} {first second : List Nat}

theorem nothing (bodies : List (List Instr)) : Allots bodies bodies [] where
  grows := .refl bodies
  among := by simp
  ascends := id
  once id := by
    rw [if_neg (by omega)]
    simp

theorem append (one : Allots bodies middle first) (other : Allots middle later second) :
    Allots bodies later (first ++ second) where
  grows := one.grows.trans other.grows
  among id mem := by
    have shorter := one.grows.length
    have longer := other.grows.length
    rcases List.mem_append.mp mem with before | behind
    · have inside := one.among id before
      omega
    · have inside := other.among id behind
      omega
  ascends := other.ascends ∘ one.ascends
  once id := by
    have shorter := one.grows.length
    have longer := other.grows.length
    have here := one.once id
    have there := other.once id
    rw [List.count_append]
    split_ifs at here there ⊢ <;> omega

/-- The body itself gets the next number, and what it holds gets the numbers behind it. -/
theorem reserve {stmts : List Stmt}
    (filled : Allots (bodies ++ [[]]) (flatten stmts (bodies ++ [[]])).2
      (mentioned (flatten stmts (bodies ++ [[]])).1)) :
    Allots bodies (Routine.reserve (flatten stmts) bodies).2
      [(Routine.reserve (flatten stmts) bodies).1] := by
  have grows := (numbers_reserve bodies (numbers_flatten stmts (bodies ++ [[]]))).grows
  rw [Routine.reserve] at grows ⊢
  generalize flatten stmts (bodies ++ [[]]) = result at filled grows ⊢
  obtain ⟨instrs, later⟩ := result
  dsimp only at filled grows ⊢
  have longer := filled.grows.length
  have among := filled.among
  rw [List.length_append, List.length_singleton] at longer among
  -- The place of the body has been left empty so far, so that filling it takes no mention away.
  have empty : later[bodies.length]? = some [] := by
    rw [filled.grows.kept bodies.length (by simp), List.getElem?_concat_length]
  refine ⟨grows, fun id mem => ?_, fun ascends => ?_, fun id => ?_⟩
  · obtain rfl := List.mem_singleton.mp mem
    rw [List.length_set]
    exact ⟨Nat.le_refl _, longer⟩
  · refine (filled.ascends ascends.append_nil).set fun child mem => ?_
    have inside := among child mem
    omega
  · have once := filled.once id
    rw [List.length_append, List.length_singleton, count_allMentioned_append_nil] at once
    rw [List.length_set, count_allMentioned_set instrs id empty, List.count_singleton]
    simp only [beq_iff_eq]
    split_ifs at once ⊢ <;> omega

end Allots

mutual

/-- Numbering a statement list gives each new body a number of its own. -/
theorem allots_flatten : (stmts : List Stmt) → (bodies : List (List Instr)) →
    Allots bodies (flatten stmts bodies).2 (mentioned (flatten stmts bodies).1)
  | [], bodies => .nothing bodies
  | stmt :: rest, bodies =>
      (allots_flattenStmt stmt bodies).append (allots_flatten rest _)

theorem allots_flattenStmt : (stmt : Stmt) → (bodies : List (List Instr)) →
    Allots bodies (flattenStmt stmt bodies).2 (flattenStmt stmt bodies).1.bodies
  | .set _ _, _ | .change _ _, _ | .op _ _, _ | .call _ _, _ | .yield, _ | .ret _, _ => .nothing _
  | .times _ body, _ | .forever body, _ | .whileTrue _ body, _ | .untilTrue _ body, _ =>
      .reserve (allots_flatten body _)
  | .ifElse _ yes no, _ =>
      (Allots.reserve (allots_flatten yes _)).append (.reserve (allots_flatten no _))

end

/-! ## Numbered scripts -/

/-- A script is the body that is numbered first. -/
theorem allots_numbered (stmts : List Stmt) : Allots [] (numbered stmts) [entry] :=
  .reserve (allots_flatten stmts _)

theorem entry_lt_numbered (stmts : List Stmt) : entry < (numbered stmts).length :=
  ((allots_numbered stmts).among entry List.mem_cons_self).2

theorem ascending_numbered (stmts : List Stmt) : Ascending (numbered stmts) :=
  (allots_numbered stmts).ascends nofun

/-- Each body but that of the script itself is held once. -/
theorem count_allMentioned_numbered (stmts : List Stmt) (id : Nat) :
    (allMentioned (numbered stmts)).count id =
      if 0 < id ∧ id < (numbered stmts).length then 1 else 0 := by
  have once := (allots_numbered stmts).once id
  have inside := entry_lt_numbered stmts
  have nothing : (allMentioned []).count id = 0 := rfl
  rw [List.count_singleton, nothing] at once
  simp only [beq_iff_eq, entry, List.length_nil] at once inside
  split_ifs at once ⊢ <;> omega

/-- The numbered bodies of a script unfold to it. -/
theorem unfoldFrom?_numbered (stmts : List Stmt) : unfoldFrom? (numbered stmts) entry = some stmts := by
  have ascends := ascending_numbered stmts
  have holds := (Routine.mk ⟨[], stmts⟩ (numbered stmts) .empty rfl).holds
  rw [unfoldFrom?_of_lt (entry_lt_numbered stmts)]
  exact unfolds_of_holds ascends stmts (ascends.behind entry) holds

section

variable {routine : Routine} {id index child : Nat} {instr : Instr}

theorem entry_lt (routine : Routine) : entry < routine.bodies.length :=
  routine.isNumbered ▸ entry_lt_numbered _

theorem lt_of_instr? (isInstr : routine.instr? id index = some instr) : id < routine.bodies.length := by
  obtain ⟨body, found, -⟩ := exists_body_of_instr? isInstr
  exact (List.getElem?_eq_some_iff.mp found).1

/-- Every body that a statement of the routine holds is there. -/
theorem child_lt (isInstr : routine.instr? id index = some instr) (mem : child ∈ instr.bodies) :
    child < routine.bodies.length := by
  have ascends : Ascending routine.bodies := routine.isNumbered ▸ ascending_numbered _
  obtain ⟨body, found, here⟩ := exists_body_of_instr? isInstr
  have isMentioned : child ∈ mentioned body :=
    List.mem_flatMap.mpr ⟨instr, List.mem_of_getElem? here, mem⟩
  exact (ascends id child ⟨body, found, isMentioned⟩).2

end

end Routine

end StepCode
