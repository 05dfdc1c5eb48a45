import StepCode.Proofs.Routine.Driving
import StepCode.Proofs.Routine.Flattening
import StepCode.Proofs.Routine.Linking

/-!
# Routines do what their scripts tell

A routine runs on numbered bodies and a stack of frames.  One statement after the other, it does what
is told of the script by recursion on its statements: the frames stand for the loops and branches that
are open, and the calls on the stack for the callers that wait.
-/

namespace StepCode

/-! ## Steps of a call -/

/-- A call that stands at `frames`. -/
def Scope.at (scope : Scope) (frames : List BodyFrame) (callers : List Activation) : Sequence :=
  ⟨none, ⟨scope.routine, scope.params, scope.warp, frames⟩ :: callers⟩

/-- A call that has come to the end of the body `id`, which is run again under a rule or left. -/
def Scope.behind (scope : Scope) (id : Nat) (outer : List BodyFrame) (callers : List Activation) :
    (again : Option Rule) → Sequence
  | some rule => scope.at (⟨id, 0, rule⟩ :: outer) callers
  | none => scope.at outer callers

/-- A call has ended with a value. -/
def Drive.leaving (callers : List Activation) (value : Value) (story : Story) : Drive :=
  match callers with
  | [] => .finished (.ended value) story
  | callers =>
      if story.turn.thread.isDone then .finished .retired story else .running ⟨none, callers⟩ story

namespace Drive

variable {foreign : Foreign} {outside : Story → Turn} {fuel : Nat} {leaves : Value → Story → Drive}
  {scope : Scope} {frame : BodyFrame} {outer : List BodyFrame} {callers : List Activation}
  {instr : Instr} {story : Story}

theorem step_instr (isInstr : scope.routine.instr? frame.body frame.index = some instr) :
    (scope.at (frame :: outer) callers).step foreign =
      Sequence.execute foreign ⟨scope.routine, scope.params, scope.warp,
        { frame with index := frame.index + 1 } :: outer⟩ callers frame.body frame.index instr >>=
          Sequence.heed :=
  Sequence.step_execute rfl isInstr

theorem tell_instr (isInstr : scope.routine.instr? frame.body frame.index = some instr) (step : Step) :
    tell (scope.at (frame :: outer) callers) step story =
      story.addIf (instr.deed? (callers.length + 1) step) := by
  have isDeed : (scope.at (frame :: outer) callers).deed? step = instr.deed? (callers.length + 1) step := by
    simp [Sequence.deed?, Sequence.instr?, Scope.at, isInstr]
  rw [tell, isDeed]

/-- A block runs until it is finished. -/
theorem follows_block {opcode : String} {args : Table Value} {calls : List Activation} (fuel : Nat)
    (state : BlockState) (story : Story) :
    Follows foreign outside fuel (.running ⟨some ⟨opcode, args, state⟩, calls⟩ story)
      (fun _ story => .running ⟨none, calls⟩ story) leaves
      ((Telling.block foreign outside opcode args fuel state).run.run story) := by
  induction fuel generalizing state story with
  | zero => exact ⟨0, Nat.le_refl 0, _, rfl⟩
  | succ fuel ih =>
      refine .step ?_
      rw [Telling.block]
      rcases isRun : (runBlock foreign opcode args state).run.run story.turn with ⟨outcome, turn⟩
      cases outcome with
      | error error =>
          rw [Sequence.step_of_runBlock_error ⟨opcode, args, state⟩ isRun, Telling.run_act_error isRun]
          exact ⟨0, rfl⟩
      | ok completion =>
          rw [Sequence.step_of_runBlock ⟨opcode, args, state⟩ isRun, Telling.run_act isRun]
          change Follows _ _ _ _ _ _ ((if turn.thread.isDone = true then _
            else if completion.finished = true then _ else _ : Telling Unit).run.run _)
          split
          · exact ⟨0, rfl⟩
          · split
            · exact ⟨0, rfl⟩
            · exact ih _ _

/-- A step that ends the call. -/
theorem settle_leave {sequence : Sequence} {value : Value} {deeds : List (Deed × Turn)} {turn : Turn}
    (quiet : ∀ step, (∃ rest, step = .rest rest) ∨ step = .more ⟨none, callers⟩ →
      tell sequence step ⟨turn, deeds⟩ = ⟨turn, deeds⟩) :
    settle outside sequence deeds ((Sequence.leave value callers >>= Sequence.heed).run.run turn) =
      leaving callers value ⟨turn, deeds⟩ := by
  cases callers with
  | nil => exact congrArg (Drive.finished _) (quiet _ (.inl ⟨_, rfl⟩))
  | cons caller callers =>
      rw [Sequence.run_leave_heed]
      change _ = if turn.thread.isDone = true then _ else _
      split
      · exact congrArg (Drive.finished _) (quiet _ (.inl ⟨_, rfl⟩))
      · exact congrArg (Drive.running _) (quiet _ (.inr rfl))

/-- A call goes on once its callee has ended, unless the thread was ended. -/
theorem follows_alive {caller : Activation} (value : Value) (story : Story) :
    Follows foreign outside fuel (leaving (caller :: callers) value story)
      (fun _ story => .running ⟨none, caller :: callers⟩ story) leaves
      (Telling.goOnIfAlive.run.run story) := by
  change Follows _ _ _ (if story.turn.thread.isDone = true then _ else _) _ _
    ((if story.turn.thread.isDone = true then _ else _ : Telling Unit).run.run _)
  split
  · exact ⟨0, rfl⟩
  · exact ⟨0, rfl⟩

/-! ## Bodies -/

theorem step_end (atEnd : scope.routine.instr? frame.body frame.index = none) :
    (scope.at (frame :: outer) callers).step foreign =
      Sequence.again foreign ⟨scope.routine, scope.params, scope.warp, frame :: outer⟩ frame.rule >>=
        fun again => pure (.more (scope.behind frame.body outer callers again)) := by
  rw [Sequence.step, Scope.at, Sequence.resume_end rfl atEnd, bind_assoc]
  refine bind_congr fun again => ?_
  cases again <;> rfl

theorem tell_end (atEnd : scope.routine.instr? frame.body frame.index = none) (step : Step) :
    tell (scope.at (frame :: outer) callers) step story = story := by
  have noDeed : (scope.at (frame :: outer) callers).deed? step = none := by
    simp [Sequence.deed?, Sequence.instr?, Scope.at, atEnd]
  rw [tell, noDeed, Story.addIf_none]

theorem instr?_length (routine : Routine) (id : Nat) :
    routine.instr? id (routine.body id).length = none := by
  simp [Routine.instr?]

/-- The statements of the body `id` do what `telling` says. -/
def FollowsBody (foreign : Foreign) (outside : Story → Turn) (fuel : Nat) (scope : Scope) (id : Nat)
    (telling : Telling Unit) : Prop :=
  ∀ rule outer callers story,
    Follows foreign outside fuel (.running (scope.at (⟨id, 0, rule⟩ :: outer) callers) story)
      (fun _ story =>
        .running (scope.at (⟨id, (scope.routine.body id).length, rule⟩ :: outer) callers) story)
      (leaving callers) (telling.run.run story)

variable {id : Nat} {telling : Telling Unit}

/-- The end of a body: it is run again or left. -/
theorem after_end {rule : Rule} (again : Option Rule)
    (isAgain : ∀ turn, (Sequence.again foreign ⟨scope.routine, scope.params, scope.warp,
      ⟨id, (scope.routine.body id).length, rule⟩ :: outer⟩ rule).run.run turn = (.ok again, turn)) :
    (Drive.running (scope.at (⟨id, (scope.routine.body id).length, rule⟩ :: outer) callers) story).after
        foreign outside 1 = .running (scope.behind id outer callers again) story := by
  have atEnd := instr?_length scope.routine id
  change settle _ _ _ ((Sequence.step _ _).run.run _) = _
  rw [step_end atEnd, ExceptT.run_bind, StateT.run_bind, isAgain]
  exact congrArg (Drive.running _) (tell_end atEnd _)

/-- A body that is run once. -/
theorem FollowsBody.once (body : FollowsBody foreign outside fuel scope id telling)
    (outer : List BodyFrame) (callers : List Activation) (story : Story) :
    Follows foreign outside fuel (.running (scope.at (⟨id, 0, .once⟩ :: outer) callers) story)
      (fun _ story => .running (scope.at outer callers) story) (leaving callers)
      (telling.run.run story) :=
  (body .once outer callers story).append fun _ _ => ⟨1, after_end none fun _ => rfl⟩

/-- A body that is run several times. -/
theorem FollowsBody.times (body : FollowsBody foreign outside fuel scope id telling)
    (outer : List BodyFrame) (callers : List Activation) (left : Nat) (story : Story) :
    Follows foreign outside fuel (.running (scope.at (⟨id, 0, .times left⟩ :: outer) callers) story)
      (fun _ story => .running (scope.at outer callers) story) (leaving callers)
      ((Telling.times telling (left + 1)).run.run story) := by
  induction left generalizing story with
  | zero =>
      refine (body _ outer callers story).bind fun _ story => ?_
      exact ⟨1, after_end none fun _ => rfl⟩
  | succ left ih =>
      refine (body _ outer callers story).bind fun _ story => ?_
      exact (ih story).prepend (after_end (some (.times left)) fun _ => rfl) (Nat.le_add_left _ _)

/-- A body that is run as long as the test of its loop statement is passed; the statement itself makes
the test before the first time. -/
theorem FollowsBody.whilePassed {owner index : Nat} {loop : Instr} {test : Act Bool}
    (body : FollowsBody foreign outside fuel scope id telling)
    (isLoop : scope.routine.instr? owner index = some loop)
    (isTest : ∀ frames, Sequence.loopsOn foreign ⟨scope.routine, scope.params, scope.warp, frames⟩
      (some loop) = test)
    (outer : List BodyFrame) (callers : List Activation) (rounds : Nat) (enough : rounds ≤ fuel)
    (story : Story) :
    Follows foreign outside rounds
      (.running (scope.at (⟨id, (scope.routine.body id).length, .recheck owner index⟩ :: outer) callers)
        story)
      (fun _ story => .running (scope.at outer callers) story) (leaving callers)
      ((Telling.whilePassed test telling rounds).run.run story) := by
  have atEnd := instr?_length scope.routine id
  induction rounds generalizing story with
  | zero => exact ⟨0, Nat.le_refl 0, _, rfl⟩
  | succ rounds ih =>
      refine .step ?_
      have isAgain : Sequence.again foreign ⟨scope.routine, scope.params, scope.warp,
          ⟨id, (scope.routine.body id).length, .recheck owner index⟩ :: outer⟩ (.recheck owner index) =
          test >>= fun passed => pure (if passed then some (.recheck owner index) else none) := by
        simp only [Sequence.again, isLoop, isTest]
      rw [step_end atEnd, isAgain, bind_assoc]
      refine .bind_act fun passed turn => ?_
      cases passed with
      | false => exact .here (congrArg (Drive.running _) (tell_end atEnd _))
      | true =>
          refine .of_eq (congrArg (Drive.running _) (tell_end atEnd _)) ?_
          refine ((body _ outer callers _).mono (by omega)).bind fun _ story => ?_
          exact ih (by omega) story

/-! ## Statements -/

section

variable (setting : Setting) (callee : Scope → Telling Value) (scope : Scope)

/-- A statement does what is told of it. -/
def FollowsStmt (stmt : Stmt) : Prop :=
  ∀ frame outer callers story instr, scope.routine.instr? frame.body frame.index = some instr →
    Routine.HoldsStmt scope.routine.body stmt instr →
    Follows setting.foreign setting.outside setting.fuel
      (.running (scope.at (frame :: outer) callers) story)
      (fun _ story => .running (scope.at ({ frame with index := frame.index + 1 } :: outer) callers) story)
      (leaving callers) ((stmt.tell setting callee scope).run.run story)

/-- A call of a routine does what is told of it.  Entering it has taken a step already. -/
def FollowsCallee : Prop :=
  ∀ scope callers story leaves,
    Follows setting.foreign setting.outside (setting.fuel - 1)
      (.running (scope.at [⟨Routine.entry, 0, .once⟩] callers) story) (leaving callers) leaves
      ((callee scope).run.run story)

theorem follows_set (var : String) (expr : Expr) :
    FollowsStmt setting callee scope (.set var expr) := by
  rintro frame outer callers story _ isInstr rfl
  refine .mono (Nat.le_succ _) (.step ?_)
  rw [step_instr isInstr]
  refine .bind_answer fun value turn => ?_
  exact .here (congrArg (Drive.running _) (tell_instr isInstr _))

theorem follows_change (var : String) (expr : Expr) :
    FollowsStmt setting callee scope (.change var expr) := by
  rintro frame outer callers story _ isInstr rfl
  refine .mono (Nat.le_succ _) (.step ?_)
  rw [step_instr isInstr]
  refine .bind_answer fun value turn => ?_
  exact .here (congrArg (Drive.running _) (tell_instr isInstr _))

theorem follows_op (opcode : String) (args : List (String × Expr)) :
    FollowsStmt setting callee scope (.op opcode args) := by
  rintro frame outer callers story _ isInstr rfl
  refine .mono (Nat.le_succ _) (.step ?_)
  rw [step_instr isInstr]
  refine .bind_answer fun values turn => ?_
  exact .of_eq (congrArg (Drive.running _) (tell_instr isInstr _)) (follows_block _ _ _)

theorem follows_yield : FollowsStmt setting callee scope .yield := by
  rintro frame outer callers story _ isInstr rfl
  refine .mono (Nat.le_succ _) (.step ?_)
  rw [step_instr isInstr]
  refine .bind_answer fun counts turn => ?_
  cases counts with
  | false => exact .here (congrArg (Drive.running _) (tell_instr isInstr _))
  | true =>
      change Follows _ _ _ (settle _ _ _ ((Sequence.heed (.yield _)).run.run turn)) _ _
        ((if turn.thread.isDone = true then _
          else if turn.thread.status = .yielded then _ else _ : Telling Unit).run.run _)
      rw [Sequence.run_heed_yield]
      split
      · exact ⟨0, congrArg (Drive.finished _) (tell_instr isInstr _)⟩
      · split
        · exact .here (congrArg (Drive.running _) (tell_instr isInstr _))
        · exact .here (congrArg (Drive.running _ ∘ Story.suspend _) (tell_instr isInstr _))

theorem follows_ret (value : Option Expr) : FollowsStmt setting callee scope (.ret value) := by
  rintro frame outer callers story _ isInstr rfl
  have leaves : ∀ turn value, settle setting.outside (scope.at (frame :: outer) callers) story.deeds
      ((Sequence.leave value callers >>= Sequence.heed).run.run turn) =
        leaving callers value ⟨turn, story.deeds⟩ :=
    fun turn value => settle_leave fun step _ => tell_instr isInstr step
  cases value with
  | none =>
      refine .mono (Nat.le_succ _) (.step ?_)
      rw [step_instr isInstr]
      exact ⟨0, leaves _ _⟩
  | some expr =>
      refine .mono (Nat.le_succ _) (.step ?_)
      rw [step_instr isInstr]
      refine .bind_answer fun value turn => ?_
      exact ⟨0, leaves _ _⟩

theorem follows_call (follows : FollowsCallee setting callee) (signature : String) (args : List Expr) :
    FollowsStmt setting callee scope (.call signature args) := by
  rintro frame outer callers story _ isInstr rfl
  refine .mono (by omega : setting.fuel ≤ setting.fuel - 1 + 1) (.step ?_)
  rw [step_instr isInstr]
  refine .bind_answer fun values turn => .bind_answer fun procedure turn => ?_
  cases procedure with
  | none =>
      refine .of_eq (settle_leave ?_) (follows_alive _ _)
      rintro step (⟨rest, rfl⟩ | rfl)
      · exact tell_instr isInstr _
      · have sameDepth : ¬ callers.length + 1 ≤ callers.length := by omega
        rw [tell_instr isInstr]
        simp [Instr.deed?, sameDepth]
  | some routine =>
      have entered : tell (scope.at (frame :: outer) callers)
          (.more ⟨none, .enter routine (bindParams routine.params values)
              (scope.warp || Sequence.inWarp signature) :: ⟨scope.routine, scope.params, scope.warp,
              { frame with index := frame.index + 1 } :: outer⟩ :: callers⟩) ⟨turn, story.deeds⟩ =
          Story.add (.entry signature (bindParams routine.params values)
            (scope.warp || Sequence.inWarp signature)) ⟨turn, story.deeds⟩ := by
        rw [tell_instr isInstr]
        simp [Instr.deed?, Activation.enter]
      refine .of_eq (congrArg (Drive.running _) entered) ?_
      exact (follows ⟨routine, _, _⟩ _ _ _).bind fun value story => follows_alive _ _

variable {setting callee scope}

/-- The statements of each body that holds them do what is told of them. -/
def FollowsAll (setting : Setting) (callee : Scope → Telling Value) (scope : Scope)
    (stmts : List Stmt) : Prop :=
  ∀ id, Routine.Holds scope.routine.body stmts (scope.routine.body id) →
    FollowsBody setting.foreign setting.outside setting.fuel scope id
      (tellAll setting callee scope stmts)

theorem follows_times {count : Expr} {body : List Stmt} (follows : FollowsAll setting callee scope body) :
    FollowsStmt setting callee scope (.times count body) := by
  rintro frame outer callers story _ isInstr ⟨id, rfl, holds⟩
  refine .mono (Nat.le_succ _) (.step ?_)
  rw [step_instr isInstr]
  refine .bind_answer fun value turn => ?_
  have isCount : (max 0 (Number.toInteger (Number.roundHalfUp value.toNumber))).toNat =
      StandardBlock.iterations value := by
    rw [StandardBlock.iterations]
    omega
  rw [isCount]
  change Follows _ _ _ (settle _ _ _ ((pure (if 0 < StandardBlock.iterations value then _ else _) >>=
    Sequence.heed).run.run _)) _ _ _
  cases StandardBlock.iterations value with
  | zero => exact .here (congrArg (Drive.running _) (tell_instr isInstr _))
  | succ left =>
      refine .of_eq (congrArg (Drive.running _) (tell_instr isInstr _)) ?_
      exact (follows id holds).times _ _ left _

/-- A loop statement makes its test, and enters its body if the test is passed. -/
theorem follows_loop {stmt : Stmt} {loop : Nat → Instr} {test : Act Bool} {body : List Stmt}
    (isTold : stmt.tell setting callee scope =
      Telling.whilePassed test (tellAll setting callee scope body) setting.fuel)
    (isHeld : ∀ instr, Routine.HoldsStmt scope.routine.body stmt instr →
      ∃ id, instr = loop id ∧ Routine.Holds scope.routine.body body (scope.routine.body id))
    (isTest : ∀ id frames, Sequence.loopsOn setting.foreign
      ⟨scope.routine, scope.params, scope.warp, frames⟩ (some (loop id)) = test)
    (isStep : ∀ id frames callers owner index, Sequence.execute setting.foreign
      ⟨scope.routine, scope.params, scope.warp, frames⟩ callers owner index (loop id) =
      test >>= fun passed => pure (.more (if passed then
        scope.at (⟨id, 0, .recheck owner index⟩ :: frames) callers else scope.at frames callers)))
    (isQuiet : ∀ id depth step, (loop id).deed? depth step = none)
    (follows : FollowsAll setting callee scope body) : FollowsStmt setting callee scope stmt := by
  intro frame outer callers story instr isInstr isStmt
  obtain ⟨id, rfl, holds⟩ := isHeld instr isStmt
  have quiet : ∀ step story, tell (scope.at (frame :: outer) callers) step story = story := by
    intro step story
    rw [tell_instr isInstr, isQuiet, Story.addIf_none]
  rw [isTold]
  cases isFuel : setting.fuel with
  | zero => exact ⟨0, Nat.le_refl 0, _, rfl⟩
  | succ rounds =>
      refine .step ?_
      rw [step_instr isInstr, isStep]
      refine .bind_answer fun passed turn => ?_
      cases passed with
      | false => exact .here (congrArg (Drive.running _) (quiet _ _))
      | true =>
          refine .of_eq (congrArg (Drive.running _) (quiet _ _)) ?_
          have bodyFollows := follows id holds
          refine ((bodyFollows _ _ _ _).mono (by omega)).bind fun _ story => ?_
          exact bodyFollows.whilePassed isInstr (isTest id) _ _ rounds (by omega) _

theorem follows_forever {body : List Stmt} (follows : FollowsAll setting callee scope body) :
    FollowsStmt setting callee scope (.forever body) := by
  refine follows_loop rfl (fun _ held => held) (fun _ _ => rfl) ?_
    (fun _ _ _ => rfl) follows
  intro id frames callers owner index
  rfl

theorem follows_whileTrue {cond : Expr} {body : List Stmt}
    (follows : FollowsAll setting callee scope body) :
    FollowsStmt setting callee scope (.whileTrue cond body) := by
  refine follows_loop rfl (fun _ held => held) (fun _ _ => rfl) ?_ (fun _ _ _ => rfl)
    follows
  intro id frames callers owner index
  rw [bind_assoc]
  refine bind_congr fun value => ?_
  cases value.toBool <;> rfl

theorem follows_untilTrue {cond : Expr} {body : List Stmt}
    (follows : FollowsAll setting callee scope body) :
    FollowsStmt setting callee scope (.untilTrue cond body) := by
  refine follows_loop rfl (fun _ held => held) (fun _ _ => rfl) ?_ (fun _ _ _ => rfl)
    follows
  intro id frames callers owner index
  rw [bind_assoc]
  refine bind_congr fun value => ?_
  cases value.toBool <;> rfl

theorem follows_ifElse {cond : Expr} {yes no : List Stmt}
    (followsYes : FollowsAll setting callee scope yes) (followsNo : FollowsAll setting callee scope no) :
    FollowsStmt setting callee scope (.ifElse cond yes no) := by
  rintro frame outer callers story _ isInstr ⟨id, other, rfl, holds, holdsOther⟩
  refine .mono (Nat.le_succ _) (.step ?_)
  rw [step_instr isInstr]
  refine .bind_answer fun value turn => ?_
  change Follows _ _ _ (settle _ _ _ ((pure (.more ⟨none, ⟨scope.routine, scope.params, scope.warp,
      ⟨if value.toBool = true then id else other, 0, .once⟩ :: _⟩ :: callers⟩) : Act Step).run.run _)) _ _
    ((if value.toBool = true then _ else _ : Telling Unit).run.run _)
  split
  · exact .of_eq (congrArg (Drive.running _) (tell_instr isInstr _)) ((followsYes id holds).once _ _ _)
  · exact .of_eq (congrArg (Drive.running _) (tell_instr isInstr _)) ((followsNo other holdsOther).once _ _ _)

/-- The rest of a body does what is told of it. -/
def FollowsFrom (setting : Setting) (callee : Scope → Telling Value) (scope : Scope)
    (stmts : List Stmt) : Prop :=
  ∀ id before instrs rule outer callers story, scope.routine.body id = before ++ instrs →
    Routine.Holds scope.routine.body stmts instrs →
    Follows setting.foreign setting.outside setting.fuel
      (.running (scope.at (⟨id, before.length, rule⟩ :: outer) callers) story)
      (fun _ story =>
        .running (scope.at (⟨id, (scope.routine.body id).length, rule⟩ :: outer) callers) story)
      (leaving callers) ((tellAll setting callee scope stmts).run.run story)

theorem followsFrom_nil : FollowsFrom setting callee scope [] := by
  rintro id before _ rule outer callers story isBody rfl
  have atEnd : before.length = (scope.routine.body id).length := by rw [isBody, List.append_nil]
  exact .here (by rw [atEnd])

theorem followsFrom_cons {stmt : Stmt} {rest : List Stmt} (first : FollowsStmt setting callee scope stmt)
    (later : FollowsFrom setting callee scope rest) :
    FollowsFrom setting callee scope (stmt :: rest) := by
  rintro id before _ rule outer callers story isBody ⟨instr, others, rfl, here, others'⟩
  have isInstr : scope.routine.instr? id before.length = some instr := by
    rw [Routine.instr?, isBody, List.getElem?_append_right (Nat.le_refl _), Nat.sub_self]
    rfl
  have isRest : scope.routine.body id = (before ++ [instr]) ++ others := by
    rw [isBody, List.append_assoc]
    rfl
  have isIndex : (before ++ [instr]).length = before.length + 1 := List.length_append
  refine (first ⟨id, before.length, rule⟩ outer callers story instr isInstr here).bind ?_
  intro _ story
  exact isIndex ▸ later id (before ++ [instr]) others rule outer callers story isRest others'

theorem FollowsFrom.all {stmts : List Stmt} (follows : FollowsFrom setting callee scope stmts) :
    FollowsAll setting callee scope stmts :=
  fun id holds rule outer callers story => follows id [] _ rule outer callers story rfl holds

mutual

theorem followsStmt (follows : FollowsCallee setting callee) (stmt : Stmt) :
    FollowsStmt setting callee scope stmt := by
  match stmt with
  | .set var value => exact follows_set setting callee scope var value
  | .change var amount => exact follows_change setting callee scope var amount
  | .op opcode args => exact follows_op setting callee scope opcode args
  | .call signature args => exact follows_call setting callee scope follows signature args
  | .yield => exact follows_yield setting callee scope
  | .times count body => exact follows_times (followsFrom follows body).all
  | .forever body => exact follows_forever (followsFrom follows body).all
  | .whileTrue cond body => exact follows_whileTrue (followsFrom follows body).all
  | .untilTrue cond body => exact follows_untilTrue (followsFrom follows body).all
  | .ifElse cond yes no => exact follows_ifElse (followsFrom follows yes).all (followsFrom follows no).all
  | .ret value => exact follows_ret setting callee scope value

theorem followsFrom (follows : FollowsCallee setting callee) (stmts : List Stmt) :
    FollowsFrom setting callee scope stmts := by
  match stmts with
  | [] => exact followsFrom_nil
  | stmt :: rest => exact followsFrom_cons (followsStmt follows stmt) (followsFrom follows rest)

end

end

/-! ## Calls -/

/-- A call whose last body has been left ends without a value. -/
theorem after_leave (callers : List Activation) (story : Story) :
    (Drive.running (scope.at [] callers) story).after foreign outside 1 =
      leaving callers .empty story :=
  settle_leave fun _ _ => rfl

/-- A value that is returned is the value of the call. -/
theorem Follows.valueOfCall {start : Drive} (callers : List Activation)
    (follows : Follows foreign outside fuel start (fun _ => leaving callers .empty) (leaving callers)
      (telling.run.run story)) :
    Follows foreign outside fuel start (leaving callers) leaves
      ((Telling.valueOfCall telling).run.run story) := by
  have isCall : (Telling.valueOfCall telling).run.run story = Telling.valueOfCall telling story := rfl
  rw [isCall, Telling.valueOfCall]
  generalize telling.run.run story = told at follows
  obtain ⟨outcome, story⟩ := told
  cases outcome with
  | ok value => exact follows
  | error halt => cases halt <;> exact follows

/-- A call of a routine does what is told of its script. -/
theorem follows_tellCall (fuel : Nat) (scope : Scope) (callers : List Activation) (story : Story)
    (leaves : Value → Story → Drive) :
    Follows foreign outside (fuel - 1) (.running (scope.at [⟨Routine.entry, 0, .once⟩] callers) story)
      (leaving callers) leaves
      ((tellCall foreign outside fuel scope.routine.script.body scope).run.run story) := by
  induction fuel generalizing scope callers story leaves with
  | zero => exact ⟨0, Nat.le_refl 0, _, rfl⟩
  | succ fuel ih =>
      have callees : FollowsCallee ⟨foreign, outside, fuel⟩
          fun callee => tellCall foreign outside fuel callee.routine.script.body callee := ih
      have body := (followsFrom callees scope.routine.script.body).all Routine.entry scope.routine.holds
      have ends := (body.once [] callers story).append fun _ story => ⟨1, after_leave callers story⟩
      exact ends.valueOfCall

/-! ## Whole runs -/

/-- The code is where the telling ends or breaks off, with the same story. -/
def IsTold (drive : Drive) : Except Halt Value × Story → Prop
  | (.ok value, story) => drive = .finished (.ended value) story
  | (.error (.returned value), story) => drive = .finished (.ended value) story
  | (.error (.failed error), story) => drive = .finished (.failed error) story
  | (.error .retired, story) => drive = .finished .retired story
  | (.error .exhausted, story) => ∃ sequence, drive = .running sequence story

/-- What has been done stays done. -/
theorem deeds_next (drive : Drive) :
    drive.story.deeds <:+ (drive.next foreign outside).story.deeds := by
  cases drive with
  | finished ending story => exact List.suffix_refl _
  | running sequence story =>
      change story.deeds <:+ (settle _ _ _ ((sequence.step foreign).run.run story.turn)).story.deeds
      generalize (sequence.step foreign).run.run story.turn = result
      obtain ⟨outcome, turn⟩ := result
      match outcome with
      | .error error => exact List.suffix_refl _
      | .ok (.more later) => exact Story.deeds_addIf ⟨turn, story.deeds⟩ _
      | .ok (.rest (.ended value)) => exact Story.deeds_addIf ⟨turn, story.deeds⟩ _
      | .ok (.rest .retired) => exact Story.deeds_addIf ⟨turn, story.deeds⟩ _
      | .ok (.rest (.suspended later)) =>
          exact (Story.deeds_addIf ⟨turn, story.deeds⟩ _).trans (List.suffix_cons _ _)

theorem deeds_after (drive : Drive) (steps : Nat) :
    drive.story.deeds <:+ (drive.after foreign outside steps).story.deeds := by
  induction steps generalizing drive with
  | zero => exact List.suffix_refl _
  | succ steps ih => exact (drive.deeds_next).trans (ih _)

theorem after_finished (ending : Ending) (story : Story) (steps : Nat) :
    (Drive.finished ending story).after foreign outside steps = .finished ending story := by
  induction steps with
  | zero => rfl
  | succ steps ih => exact ih

/-- Code that is over stays so. -/
theorem after_eq_finished {start : Drive} {ending : Ending} {steps more : Nat}
    (isFinished : start.after foreign outside steps = .finished ending story) (later : steps ≤ more) :
    start.after foreign outside more = .finished ending story := by
  obtain ⟨rest, rfl⟩ := Nat.exists_eq_add_of_le later
  rw [after_add, isFinished, after_finished]

theorem IsTold.story_eq {drive : Drive} {told : Except Halt Value × Story} (isTold : drive.IsTold told) :
    drive.story = told.2 := by
  obtain ⟨outcome, story⟩ := told
  match outcome with
  | .ok value | .error (.returned value) | .error (.failed error) | .error .retired =>
      rw [show drive = _ from isTold]
      rfl
  | .error .exhausted =>
      obtain ⟨sequence, rfl⟩ := isTold
      rfl

/-- The code is over where the telling does not break off. -/
theorem IsTold.exists_finished {drive : Drive} {told : Except Halt Value × Story}
    (isTold : drive.IsTold told) (ends : told.1 ≠ .error .exhausted) :
    ∃ ending story, drive = .finished ending story := by
  obtain ⟨outcome, story⟩ := told
  match outcome with
  | .ok value | .error (.returned value) | .error (.failed error) | .error .retired =>
      exact ⟨_, _, isTold⟩
  | .error .exhausted => exact absurd rfl ends

/-- A routine does what is told of its script, as far as it is told. -/
theorem exists_isTold (scope : Scope) (turn : Turn) (fuel : Nat) :
    ∃ steps, ((running (scope.at [⟨Routine.entry, 0, .once⟩] []) ⟨turn, []⟩).after foreign outside
        steps).IsTold (scope.routine.script.tell foreign outside fuel scope turn) ∧
      ((scope.routine.script.tell foreign outside fuel scope turn).1 = .error .exhausted →
        fuel ≤ steps + 1) := by
  have follows : Follows foreign outside (fuel - 1)
      (.running (scope.at [⟨Routine.entry, 0, .once⟩] []) ⟨turn, []⟩) (leaving []) (leaving [])
      (scope.routine.script.tell foreign outside fuel scope turn) := follows_tellCall _ _ _ _ _
  generalize scope.routine.script.tell foreign outside fuel scope turn = told at follows
  obtain ⟨outcome, story⟩ := told
  match outcome with
  | .ok value =>
      obtain ⟨steps, comes⟩ := follows
      exact ⟨steps, comes, by simp⟩
  | .error (.returned value) =>
      obtain ⟨steps, comes⟩ := follows
      exact ⟨steps, comes, by simp⟩
  | .error (.failed error) =>
      obtain ⟨steps, comes⟩ := follows
      exact ⟨steps, comes, by simp⟩
  | .error .retired =>
      obtain ⟨steps, comes⟩ := follows
      exact ⟨steps, comes, by simp⟩
  | .error .exhausted =>
      obtain ⟨steps, long, comes⟩ := follows
      exact ⟨steps, comes, fun _ => by omega⟩

/-- Told far enough, the script does all that the first steps of the routine do, and ends as it does. -/
theorem covers (scope : Scope) (turn : Turn) {steps fuel : Nat} (enough : steps + 2 ≤ fuel)
    {start : Drive} (isStart : start = running (scope.at [⟨Routine.entry, 0, .once⟩] []) ⟨turn, []⟩) :
    (start.after foreign outside steps).story.deeds <:+
        (scope.routine.script.tell foreign outside fuel scope turn).2.deeds ∧
      ∀ ending story, start.after foreign outside steps = .finished ending story →
        (start.after foreign outside steps).IsTold
          (scope.routine.script.tell foreign outside fuel scope turn) := by
  obtain ⟨reached, isTold, long⟩ : ∃ reached, (start.after foreign outside reached).IsTold
      (scope.routine.script.tell foreign outside fuel scope turn) ∧ _ :=
    isStart ▸ exists_isTold scope turn fuel
  -- Behind the place where the telling ends nothing happens any more.
  have last : ∃ more, start.after foreign outside (steps + more) = start.after foreign outside reached := by
    by_cases exhausted : (scope.routine.script.tell foreign outside fuel scope turn).1 = .error .exhausted
    · have before := long exhausted
      exact ⟨reached - steps, by rw [Nat.add_sub_cancel' (by omega)]⟩
    · obtain ⟨ending, story, isFinished⟩ := isTold.exists_finished exhausted
      exact ⟨reached, by rw [after_eq_finished isFinished (Nat.le_add_left _ _), isFinished]⟩
  obtain ⟨more, comes⟩ := last
  rw [after_add] at comes
  refine ⟨?_, fun ending story isFinished => ?_⟩
  · rw [← isTold.story_eq, ← comes]
    exact deeds_after _ _
  · rw [isFinished, after_finished] at comes
    rw [isFinished, comes]
    exact isTold

/-- The moments of a turn are moments of the drive. -/
theorem exists_after_visits (outside : Story → Turn) {start moment : Sequence × Turn}
    (visits : Sequence.Visits foreign start moment) (deeds : List (Deed × Turn)) :
    ∃ steps told, (running start.1 ⟨start.2, deeds⟩).after foreign outside steps =
      running moment.1 ⟨moment.2, told⟩ := by
  induction visits with
  | refl => exact ⟨0, deeds, rfl⟩
  | @tail middle later _ isStep ih =>
      obtain ⟨steps, told, comes⟩ := ih
      have isNext : (running middle.1 ⟨middle.2, told⟩).after foreign outside 1 =
          settle outside middle.1 told ((middle.1.step foreign).run.run middle.2) := rfl
      have sameTurn : (tell middle.1 (.more later.1) ⟨later.2, told⟩).turn = later.2 :=
        Story.addIf_turn _ _
      refine ⟨steps + 1, (tell middle.1 (.more later.1) ⟨later.2, told⟩).deeds, ?_⟩
      rw [after_add, comes, isNext, isStep]
      exact congrArg (running later.1) (congrArg (Story.mk · _) sameTurn)

/-- A resumption of the code is a stretch of its run. -/
theorem exists_after_run? {sequence : Sequence} {limit : Nat} {outcome : Except RunError Rest}
    {later : Turn} (resumed : sequence.run? foreign limit story.turn = some (outcome, later)) :
    ∃ steps deeds, (running sequence story).after foreign outside steps =
      rested outside ⟨later, deeds⟩ outcome := by
  obtain ⟨moment, visits, ends⟩ := Sequence.RestsWith.of_run? resumed
  obtain ⟨steps, told, comes⟩ := exists_after_visits outside visits story.deeds
  have isNext : (running moment.1 ⟨moment.2, told⟩).after foreign outside 1 =
      settle outside moment.1 told ((moment.1.step foreign).run.run moment.2) := rfl
  rw [← comes, ← after_add, ends] at isNext
  cases outcome with
  | error error => exact ⟨steps + 1, told, isNext⟩
  | ok rest =>
      have sameTurn : (tell moment.1 (.rest rest) ⟨later, told⟩).turn = later := Story.addIf_turn _ _
      refine ⟨steps + 1, (tell moment.1 (.rest rest) ⟨later, told⟩).deeds, isNext.trans ?_⟩
      exact congrArg (rested outside · (.ok rest)) (congrArg (Story.mk · _) sameTurn)

end Drive

/-- A routine that is loaded from the text of a script does what is told of the script, whatever the
parameters, in warp or not, from any state of the host, whatever foreign blocks do and whatever happens
while it is suspended.  As far as the script is told, there is a point where the routine has done just
this, and it has ended or failed or found its thread ended if this is told.  Conversely, all that the
routine does in its first steps is told of the script, if it is told far enough, and its end as well.
Resuming the routine is going on with such steps. -/
theorem routines_do_what_scripts_tell {source : String} {table : Table Helper} {script : Script}
    {routine : Routine} (parsed : Script.parse source = .ok script)
    (loaded : Routine.load source table = .ok routine) (foreign : Foreign) (outside : Story → Turn)
    (params : Table Value) (warp : Bool) (turn : Turn) :
    let start := Drive.running ⟨none, [.enter routine params warp]⟩ ⟨turn, []⟩
    let told (fuel : Nat) := script.tell foreign outside fuel ⟨routine, params, warp⟩ turn
    (∀ fuel, ∃ steps, (start.after foreign outside steps).IsTold (told fuel) ∧
      ((told fuel).1 = .error .exhausted → fuel ≤ steps + 1)) ∧
    (∀ steps fuel, steps + 2 ≤ fuel →
      (start.after foreign outside steps).story.deeds <:+ (told fuel).2.deeds ∧
      ∀ ending story, start.after foreign outside steps = .finished ending story →
        (start.after foreign outside steps).IsTold (told fuel)) ∧
    ∀ (sequence : Sequence) (story : Story) (limit : Nat) (outcome : Except RunError Rest) (later : Turn),
      sequence.run? foreign limit story.turn = some (outcome, later) →
      ∃ steps deeds, (Drive.running sequence story).after foreign outside steps =
        Drive.rested outside ⟨later, deeds⟩ outcome := by
  obtain rfl := Routine.script_of_load parsed loaded
  intro start told
  refine ⟨fun fuel => Drive.exists_isTold ⟨routine, params, warp⟩ turn fuel, ?_, ?_⟩
  · intro steps fuel enough
    exact Drive.covers ⟨routine, params, warp⟩ turn enough rfl
  · intro sequence story limit outcome later resumed
    exact Drive.exists_after_run? resumed

/-- While a parameter says so: give up the tick once, and then return from within the loop. -/
def pausingScript : Script :=
  ⟨["v"], [.whileTrue (.param "v") [.yield, .ret (some (.text "done"))], .set "x" (.text "missed")]⟩

theorem pausingScript_sound : BodySound pausingScript.body :=
  ⟨⟨⟨trivial, trivial, trivial, trivial⟩, trivial, trivial⟩, by decide⟩

/-- A thread on a host without targets. -/
def emptyTurn : Turn := ⟨.start ⟨[], [], .empty, .empty⟩, .start 0 0 "h"⟩

/-- Outside warp, the script is suspended once, and ends with its value when it is resumed. -/
theorem pausingScript_told : ∃ routine steps,
    Routine.load pausingScript.print (approvedHelpers Helper.shipped) = .ok routine ∧
    (Drive.running ⟨none, [.enter routine (bindParams ["v"] [.bool true]) false]⟩ ⟨emptyTurn, []⟩).after
        (fun _ _ _ => return .empty) Story.turn steps =
      .finished (.ended (.text "done")) ⟨emptyTurn, [(.suspension, emptyTurn)]⟩ := by
  have parsed := Script.parse_print pausingScript_sound.wellFormed
  obtain ⟨routine, loaded⟩ := Routine.exists_load pausingScript_sound parsed
  obtain ⟨tells, -⟩ := routines_do_what_scripts_tell parsed loaded (fun _ _ _ => return .empty)
    Story.turn (bindParams ["v"] [.bool true]) false emptyTurn
  obtain ⟨steps, isTold, -⟩ := tells 2
  exact ⟨routine, steps, loaded, isTold⟩

end StepCode
