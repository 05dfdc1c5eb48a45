import StepCode.Proofs.Routine.Linking
import StepCode.Proofs.Routine.Suspending
import StepCode.Proofs.Routine.Unfolding

/-!
# Nothing is missing in a run

A frame of a call runs a body of its routine, and asks at the end of a loop the loop that the body is
in.  Both are found there, at every moment of a run: a body without statements is never taken for one that
does not exist.
-/

namespace StepCode

/-! ## What frames look up -/

/-- The statement is a loop that is asked at the end of its body whether it runs it again. -/
inductive Instr.Rechecks (body : Nat) : Instr → Prop
  | forever : Rechecks body (.forever body)
  | whileTrue {cond : Expr} : Rechecks body (.whileTrue cond body)
  | untilTrue {cond : Expr} : Rechecks body (.untilTrue cond body)

/-- The body that the frame runs is there, and so is the loop that is asked at its end, which is a loop
around this body. -/
structure BodyFrame.Grounded (routine : Routine) (frame : BodyFrame) : Prop where
  body : frame.body < routine.bodies.length
  loop : ∀ owner index, frame.rule = .recheck owner index → owner < routine.bodies.length ∧
    ∃ loop, routine.instr? owner index = some loop ∧ loop.Rechecks frame.body

def Activation.Grounded (call : Activation) : Prop :=
  ∀ frame ∈ call.frames, frame.Grounded call.routine

/-- No call looks up a body or a loop that is missing. -/
def Sequence.Grounded (sequence : Sequence) : Prop := ∀ call ∈ sequence.calls, call.Grounded

def Response.Grounded : Response → Prop
  | .more sequence => sequence.Grounded
  | .yield sequence => sequence.Grounded
  | .done _ => True

def Step.Grounded : Step → Prop
  | .more sequence => sequence.Grounded
  | .rest (.suspended sequence) => sequence.Grounded
  | .rest _ => True

namespace BodyFrame.Grounded

variable {routine : Routine} {body : Nat}

theorem once (inside : body < routine.bodies.length) : BodyFrame.Grounded routine ⟨body, 0, .once⟩ :=
  ⟨inside, nofun⟩

theorem times {left : Nat} (inside : body < routine.bodies.length) :
    BodyFrame.Grounded routine ⟨body, 0, .times left⟩ :=
  ⟨inside, nofun⟩

theorem recheck {owner index : Nat} {loop : Instr} (isLoop : routine.instr? owner index = some loop)
    (rechecks : loop.Rechecks body) : BodyFrame.Grounded routine ⟨body, 0, .recheck owner index⟩ where
  body := Routine.child_lt isLoop (by cases rechecks <;> exact List.mem_cons_self)
  loop := by
    rintro _ _ ⟨⟩
    exact ⟨Routine.lt_of_instr? isLoop, loop, isLoop, rechecks⟩

end BodyFrame.Grounded

theorem Activation.Grounded.enter (routine : Routine) (params : Table Value) (warp : Bool) :
    (Activation.enter routine params warp).Grounded := by
  intro frame mem
  obtain rfl := List.mem_singleton.mp mem
  exact .once routine.entry_lt

namespace Sequence

variable {foreign : Foreign} {call : Activation} {callers : List Activation} {turn : Turn}

theorem leave_grounded {value : Value} (others : ∀ caller ∈ callers, caller.Grounded) :
    Ensures (fun response _ => response.Grounded) (leave value callers) turn := by
  unfold leave
  split
  next => exact .pure trivial
  next =>
    refine .getThen ?_
    split
    · exact .pure others
    · exact .pure others

/-- A statement enters bodies that it holds.  The frame of a loop asks the very statement that is run,
which has just been found. -/
theorem execute_grounded {owner index : Nat} {instr : Instr}
    (isInstr : call.routine.instr? owner index = some instr) (here : call.Grounded)
    (others : ∀ caller ∈ callers, caller.Grounded) :
    Ensures (fun response _ => response.Grounded) (execute foreign call callers owner index instr)
      turn := by
  have stays : ∀ caller ∈ call :: callers, caller.Grounded := List.forall_mem_cons.mpr ⟨here, others⟩
  have enters : ∀ frame : BodyFrame, frame.Grounded call.routine →
      ∀ caller ∈ { call with frames := frame :: call.frames } :: callers, caller.Grounded :=
    fun frame grounded => List.forall_mem_cons.mpr ⟨List.forall_mem_cons.mpr ⟨grounded, here⟩, others⟩
  unfold execute
  cases instr with
  | set var expr => exact .bind .ran fun _ _ _ => .updateThen (.pure stays)
  | change var amount => exact .bind .ran fun _ _ _ => .updateThen (.pure stays)
  | op opcode args => exact .bind .ran fun _ _ _ => .pure stays
  | call signature args =>
      refine .bind .ran fun _ _ _ => .bind .ran fun procedure _ _ => ?_
      cases procedure with
      | none => exact leave_grounded stays
      | some routine => exact .pure (List.forall_mem_cons.mpr ⟨.enter _ _ _, stays⟩)
  | yield =>
      refine .bind .ran fun counts _ _ => ?_
      cases counts with
      | true => exact .pure stays
      | false => exact .pure stays
  | times count body =>
      refine .bind .ran fun _ _ _ => ?_
      dsimp only
      split
      · exact .pure (enters _ (.times (Routine.child_lt isInstr List.mem_cons_self)))
      · exact .pure stays
  | forever body => exact .pure (enters _ (.recheck isInstr .forever))
  | whileTrue cond body =>
      refine .bind .ran fun _ _ _ => ?_
      dsimp only
      split
      · exact .pure (enters _ (.recheck isInstr .whileTrue))
      · exact .pure stays
  | untilTrue cond body =>
      refine .bind .ran fun _ _ _ => ?_
      dsimp only
      split
      · exact .pure stays
      · exact .pure (enters _ (.recheck isInstr .untilTrue))
  | ifElse cond yes no =>
      refine .bind .ran fun value _ _ => ?_
      cases value.toBool with
      | true => exact .pure (enters _ (.once (Routine.child_lt isInstr (by simp [Instr.bodies]))))
      | false => exact .pure (enters _ (.once (Routine.child_lt isInstr (by simp [Instr.bodies]))))
  | ret result =>
      cases result with
      | none => exact leave_grounded others
      | some expr => exact .bind .ran fun _ _ _ => leave_grounded others

/-- A body that is run again is still there, and so is the loop around it. -/
theorem again_grounded {frame : BodyFrame} (grounded : frame.Grounded call.routine) :
    Ensures (fun rule _ => ∀ next, rule = some next →
      BodyFrame.Grounded call.routine ⟨frame.body, 0, next⟩) (again foreign call frame.rule) turn := by
  obtain ⟨body, index, rule⟩ := frame
  cases rule with
  | once => exact .pure nofun
  | times left =>
      refine .pure fun next isNext => ?_
      split at isNext
      next =>
        obtain rfl := Option.some.inj isNext
        exact .times grounded.body
      next => cases isNext
  | recheck owner place =>
      refine .bind .ran fun continued _ _ => .pure fun next isNext => ?_
      cases continued with
      | true =>
          obtain rfl := Option.some.inj isNext
          exact ⟨grounded.body, grounded.loop⟩
      | false => cases isNext

theorem stepCall_grounded (here : call.Grounded) (others : ∀ caller ∈ callers, caller.Grounded) :
    Ensures (fun response _ => response.Grounded) (stepCall foreign call callers) turn := by
  unfold stepCall
  split
  next => exact leave_grounded others
  next frame outer isFrames =>
    have grounded : ∀ inner ∈ frame :: outer, inner.Grounded call.routine :=
      fun inner mem => here inner (isFrames ▸ mem)
    obtain ⟨inner, around⟩ := List.forall_mem_cons.mp grounded
    split
    next instr isInstr =>
      refine execute_grounded isInstr (List.forall_mem_cons.mpr ⟨?_, around⟩) others
      exact ⟨inner.body, inner.loop⟩
    next =>
      refine .bind (again_grounded inner) fun rule _ repeated => ?_
      cases rule with
      | none => exact .pure (List.forall_mem_cons.mpr ⟨around, others⟩)
      | some rule =>
          have entered := List.forall_mem_cons.mpr ⟨repeated rule rfl, around⟩
          exact .pure (List.forall_mem_cons.mpr ⟨entered, others⟩)

theorem stepPending_grounded {op : PendingOp} (grounded : ∀ call ∈ callers, call.Grounded) :
    Ensures (fun response _ => response.Grounded) (stepPending foreign op callers) turn := by
  unfold stepPending
  refine .bind .ran fun completion _ _ => .getThen ?_
  split
  · exact .pure grounded
  · split
    · exact .setThen (.pure grounded)
    · split
      · exact .pure grounded
      · exact .pure grounded

theorem resume_grounded {sequence : Sequence} (grounded : sequence.Grounded) :
    Ensures (fun response _ => response.Grounded) (sequence.resume foreign) turn := by
  obtain ⟨pending, calls⟩ := sequence
  cases pending with
  | some op => exact stepPending_grounded grounded
  | none =>
      cases calls with
      | nil => exact .pure trivial
      | cons call callers =>
          obtain ⟨here, others⟩ := List.forall_mem_cons.mp grounded
          exact stepCall_grounded here others

theorem heed_grounded {response : Response} (grounded : response.Grounded) :
    Ensures (fun step _ => step.Grounded) (heed response) turn := by
  cases response with
  | more sequence => exact .pure grounded
  | done value => exact .pure trivial
  | yield sequence =>
      refine .getThen ?_
      split
      · exact .pure trivial
      · split
        · exact .setThen (.pure grounded)
        · exact .pure grounded

/-- What a step leaves to run looks up nothing that is missing either. -/
theorem step_grounded {sequence : Sequence} (grounded : sequence.Grounded) :
    Ensures (fun step _ => step.Grounded) (sequence.step foreign) turn :=
  .bind (resume_grounded grounded) fun _ _ => heed_grounded

theorem Visits.grounded {start moment : Sequence × Turn} (visits : Visits foreign start moment)
    (grounded : start.1.Grounded) : moment.1.Grounded := by
  induction visits with
  | refl => exact grounded
  | tail _ steps ih => exact step_grounded ih _ _ steps

/-- Compiled code that goes on in later ticks, whatever becomes of the host and the thread in between:
`later` is where it stands at some moment of one of its turns. -/
inductive GetsTo (foreign : Foreign) (sequence : Sequence) : Sequence → Prop
  | start : GetsTo foreign sequence sequence
  | visit {begun : Sequence} {turn : Turn} {moment : Sequence × Turn}
      (before : GetsTo foreign sequence begun) (visits : Visits foreign (begun, turn) moment) :
      GetsTo foreign sequence moment.1
  | resume {begun later : Sequence} {turn last : Turn} (before : GetsTo foreign sequence begun)
      (rests : RestsWith foreign (begun, turn) (.ok (.suspended later)) last) :
      GetsTo foreign sequence later

theorem GetsTo.grounded {sequence later : Sequence} (getsTo : GetsTo foreign sequence later)
    (grounded : sequence.Grounded) : later.Grounded := by
  induction getsTo with
  | start => exact grounded
  | visit _ visits ih => exact visits.grounded ih
  | resume _ rests ih =>
      obtain ⟨moment, visits, rests⟩ := rests
      exact step_grounded (visits.grounded ih) _ _ rests

end Sequence

namespace Routine

/-- The bodies of a script are numbered so that nothing of it is lost.  A body that a statement holds is
there, behind the body that the statement is in; each body but the first is held by one statement, in one
place; with the bodies back in place of their numbers, the script is there again; and no way from body to
body, inward or outward, is endless.  A routine that is loaded from a text has the bodies of its script,
and whatever it calls and whatever happens while it is suspended, no call looks up a body or a loop that
is missing. -/
theorem numbered_bodies_unfold_to_the_script (stmts : List Stmt) :
    (∀ id child, Encloses (numbered stmts) id child →
      id < child ∧ child < (numbered stmts).length) ∧
    (∀ id, (allMentioned (numbered stmts)).count id =
      if 0 < id ∧ id < (numbered stmts).length then 1 else 0) ∧
    unfoldFrom? (numbered stmts) entry = some stmts ∧
    WellFounded (fun child id => Encloses (numbered stmts) id child) ∧
    WellFounded (Encloses (numbered stmts)) ∧
    ∀ source table script routine, Script.parse source = .ok script → script.body = stmts →
      load source table = .ok routine →
        routine.bodies = numbered stmts ∧
        ∀ foreign params warp sequence,
          Sequence.GetsTo foreign ⟨none, [.enter routine params warp]⟩ sequence →
            sequence.Grounded := by
  have ascends := ascending_numbered stmts
  refine ⟨ascends, count_allMentioned_numbered stmts, unfoldFrom?_numbered stmts,
    ascends.wellFounded_inward, ascends.wellFounded_outward, ?_⟩
  rintro source table script routine parsed rfl loaded
  refine ⟨?_, fun foreign params warp sequence getsTo => getsTo.grounded ?_⟩
  · rw [routine.isNumbered, script_of_load parsed loaded]
  · intro call mem
    obtain rfl := List.mem_singleton.mp mem
    exact .enter routine params warp

/-- A branch in a loop, with a statement behind each of them. -/
def nestedScript : Script :=
  ⟨[], [.forever [.ifElse (.bool true) [.yield] [], .change "x" (.text "1")], .ret none]⟩

theorem nestedScript_sound : BodySound nestedScript.body :=
  ⟨⟨⟨⟨trivial, ⟨trivial, trivial⟩, trivial⟩, trivial, trivial⟩, trivial, trivial⟩, by decide⟩

def nestedRoutine : Routine := ⟨nestedScript, numbered nestedScript.body, .empty, rfl⟩

/-- The script behind its yield. -/
def nestedPause : Sequence :=
  ⟨none, [⟨nestedRoutine, .empty, false, [⟨2, 1, .once⟩, ⟨1, 1, .recheck 0 0⟩, ⟨0, 1, .once⟩]⟩]⟩

theorem nestedPause_reached (foreign : Foreign) :
    Sequence.GetsTo foreign ⟨none, [.enter nestedRoutine .empty false]⟩ nestedPause := by
  let turn : Turn := ⟨.start ⟨[], [], .empty, .empty⟩, .start 0 0 "h"⟩
  let inLoop : Sequence :=
    ⟨none, [⟨nestedRoutine, .empty, false, [⟨1, 0, .recheck 0 0⟩, ⟨0, 1, .once⟩]⟩]⟩
  let inBranch : Sequence :=
    ⟨none, [⟨nestedRoutine, .empty, false, [⟨2, 0, .once⟩, ⟨1, 1, .recheck 0 0⟩, ⟨0, 1, .once⟩]⟩]⟩
  have enters : Sequence.StepsTo foreign
      (⟨none, [.enter nestedRoutine .empty false]⟩, turn) (inLoop, turn) := rfl
  have branches : Sequence.StepsTo foreign (inLoop, turn) (inBranch, turn) := rfl
  have pauses : (inBranch.step foreign).run.run turn = (.ok (.rest (.suspended nestedPause)), turn) := rfl
  exact .resume .start ⟨_, .tail (.tail .refl enters) branches, pauses⟩

/-- Four bodies are numbered from the outside in.  When the script is suspended in its branch, the
bodies that it stands in are there, and so is its loop. -/
theorem nestedScript_unfolds :
    Script.parse nestedScript.print = .ok nestedScript ∧
    load nestedScript.print (approvedHelpers Helper.shipped) = .ok nestedRoutine ∧
    nestedRoutine.bodies = [[.forever 1, .ret none],
      [.ifElse (.bool true) 2 3, .change "x" (.text "1")], [.yield], []] ∧
    Encloses nestedRoutine.bodies 1 3 ∧ 1 < 3 ∧ 3 < nestedRoutine.bodies.length ∧
    (allMentioned nestedRoutine.bodies).count 3 = 1 ∧
    unfoldFrom? nestedRoutine.bodies entry = some nestedScript.body ∧
    ∀ foreign, Sequence.GetsTo foreign ⟨none, [.enter nestedRoutine .empty false]⟩ nestedPause ∧
      nestedPause.Grounded := by
  have parsed := Script.parse_print nestedScript_sound.wellFormed
  have loaded : load nestedScript.print (approvedHelpers Helper.shipped) = .ok nestedRoutine := by
    obtain ⟨routine, loaded⟩ := exists_load nestedScript_sound parsed
    rw [loaded, eq_of_load_helperless loaded (script_of_load parsed loaded) rfl]
    rfl
  obtain ⟨order, once, unfolds, -, -, looksUp⟩ :=
    numbered_bodies_unfold_to_the_script nestedScript.body
  obtain ⟨isNumbered, grounded⟩ := looksUp _ _ _ _ parsed rfl loaded
  have encloses : Encloses nestedRoutine.bodies 1 3 := ⟨_, rfl, by decide⟩
  obtain ⟨behind, inside⟩ := order 1 3 encloses
  have reached := nestedPause_reached
  exact ⟨parsed, loaded, isNumbered, encloses, behind, inside, once 3, unfolds,
    fun foreign => ⟨reached foreign, grounded foreign _ _ _ (reached foreign)⟩⟩

end Routine

end StepCode
