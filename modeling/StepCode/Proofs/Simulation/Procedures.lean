import StepCode.Proofs.Simulation.Statements

/-!
# Procedures

A call of a procedure binds the same parameters on both sides.  The interpreter goes on at the
definition, compiled code at the beginning of the routine that answers the call.
-/

namespace StepCode

open Lowering (Place)

/-! ## Parameters -/

/-- Names with values, and the same names with the values at their places. -/
theorem forall₂_zip_zipIdx {names : List String} {values others : List Value} {offset : Nat}
    (pairs : List.Forall₂ Value.Alike values (others.drop offset))
    (enough : names.length ≤ values.length) :
    List.Forall₂ (fun entry other => entry.1 = other.1 ∧ entry.2.Alike other.2) (names.zip values)
      ((names.zipIdx offset).map fun entry => (entry.1, (others[entry.2]?).getD .empty)) := by
  induction names generalizing values offset with
  | nil => exact .nil
  | cons name names ih =>
      cases values with
      | nil => simp at enough
      | cons value values =>
          obtain ⟨other, rest, alike, later, isDrop⟩ := List.forall₂_cons_left_iff.mp pairs
          have isOther : others[offset]? = some other := by
            rw [← List.head?_drop, isDrop]
            rfl
          have isRest : others.drop (offset + 1) = rest := by
            rw [← List.tail_drop, isDrop]
            rfl
          rw [List.zip_cons_cons, List.zipIdx_cons, List.map_cons]
          refine .cons ⟨rfl, ?_⟩ (ih (isRest ▸ later) (by simpa using enough))
          rw [isOther]
          exact alike

/-- The parameters of a call are bound to alike values. -/
theorem binds_of_call {place : Place} {values others : List Value} {frame : Frame} {rest : List Frame}
    (pairs : List.Forall₂ Value.Alike values others)
    (enough : place.params.length ≤ values.length)
    (isParams : frame.params = some (.ofList (place.params.zip values))) :
    Binds place (bindParams place.params others) (frame :: rest) := by
  have innermost : (frame :: rest).findSome? Frame.params = some (.ofList (place.params.zip values)) := by
    simp [isParams]
  have isNames : (place.params.zip values).map (·.1) = place.params := List.map_fst_zip enough
  have alike : (Table.ofList (place.params.zip values)).Alike (bindParams place.params others) :=
    (Table.Alike.refl .empty).insertAll (forall₂_zip_zipIdx pairs enough)
  refine ⟨fun name mem => ?_, fun name absent => ?_⟩
  · rw [innermost, Option.bind_some]
    have stored : name ∈ (Table.ofList (place.params.zip values)).keys :=
      Table.mem_keys_insertAll.mpr (.inl (isNames.symm ▸ mem))
    obtain ⟨value, isValue⟩ := Table.exists_get?_of_mem_keys stored
    refine ⟨value, isValue, ?_⟩
    simpa [isValue] using alike.getD_alike name
  · rw [innermost, Option.bind_some]
    exact Table.get?_insertAll_of_notMem (isNames.symm ▸ absent)

/-! ## Signatures -/

theorem proccodeOf_signature (inWarp : Bool) (proccode : String) :
    proccodeOf ((if inWarp then "W" else "Z") ++ proccode) = proccode := by
  cases inWarp <;> simp [proccodeOf, String.toList_append]

theorem inWarp_signature (inWarp : Bool) (proccode : String) :
    Sequence.inWarp ((if inWarp then "W" else "Z") ++ proccode) = inWarp := by
  cases inWarp <;> simp only [Sequence.inWarp, Text.startsWith, String.toList_append] <;> rfl

/-! ## Looking up -/

section

variable {world : World} {foreign : Foreign} {depth : Nat} {place : Place} {params : Table Value}
  {id : String} {block : Block} {frame : Frame} {rest : List Frame} {left right : Turn}
  {routine : Routine} {warp : Bool} {body : BodyFrame} {bodies : List BodyFrame}
  {callers : List Activation} {result : Turn × Bool}

theorem getElem?_of_map_data {targets : List LiveTarget} {datas : List Target} {index : Nat}
    {data : Target} (isData : targets.map LiveTarget.data = datas) (found : datas[index]? = some data) :
    ∃ live, targets[index]? = some live ∧ live.data = data := by
  rw [← isData, List.getElem?_map] at found
  exact Option.map_eq_some_iff.mp found

/-- The rebuilt target of a thread. -/
theorem World.Faces.exists_after (faces : world.Faces place params id block frame rest left right) :
    ∃ after live, world.afters[left.thread.target]? = some after ∧
      right.host.targets[right.thread.target]? = some live ∧ live.data = after := by
  obtain ⟨live, isLive, -⟩ := getElem?_of_map_data faces.turns.hosts.befores faces.isTarget
  rcases forall₂_getElem? faces.turns.hosts.alike left.thread.target with
    ⟨absent, -⟩ | ⟨_, other, -, isOther, -⟩
  · rw [absent] at isLive
    cases isLive
  · refine ⟨other.data, other, ?_, faces.turns.target ▸ isOther, rfl⟩
    rw [← faces.turns.hosts.afters, List.getElem?_map, isOther]
    rfl

/-- A call is answered in the rebuilt target, and what the support keeps goes on to agree. -/
theorem World.Hosts.run_resolve {after : Target} {live : LiveTarget} {signature : String}
    {procedure : Option Routine} {host : Host} (hosts : world.Hosts host right.host) (sound : world.Sound)
    (isAfter : after ∈ world.afters)
    (isLive : right.host.targets[right.thread.target]? = some live) (isData : live.data = after)
    (answers : ∀ support : Support, support.Agrees (approvedHelpers Helper.shipped) after →
      ∃ later, support.resolve after signature = .ok (procedure, later)) :
    ∃ other, world.Hosts host other ∧
      (Sequence.resolve signature).run.run right = (.ok procedure, ⟨other, right.thread⟩) := by
  obtain ⟨support, isSupport, agrees⟩ := hosts.support
  obtain ⟨later, resolved⟩ := answers support (agrees after isAfter)
  refine ⟨{ right.host with support := some later },
    { hosts with support := ⟨later, rfl, fun other mem => ?_⟩ }, ?_⟩
  · exact (agrees other mem).resolve (sound.alone other mem after isAfter) resolved
  · have reading : Yields (ε := RunError) (get : Act Turn) right right := rfl
    unfold Sequence.resolve
    rw [reading.run_bind]
    simp only [isSupport, isLive, isData, resolved]
    rfl

/-! ## Calls -/

theorem mapM_yields {exprs : List Expr} {values : List Value}
    (each : List.Forall₂ (fun expr value => Yields (eval foreign routine params expr) right value) exprs
      values) :
    Yields (exprs.mapM (eval foreign routine params)) right values := by
  induction each with
  | nil => exact .pure _ _
  | cons first _ ih =>
      rw [List.mapM_cons]
      exact first.bind (ih.bind (.pure _ _))

/-- Compiled code calls a procedure that has no routine. -/
theorem step_call_missing {signature : String} {exprs : List Expr} {values : List Value} {other : Host}
    (running : right.thread.status = .running)
    (isInstr : routine.instr? body.body body.index = some (.call signature exprs))
    (yields : Yields (exprs.mapM (eval foreign routine params)) right values)
    (resolved : (Sequence.resolve signature).run.run right = (.ok none, ⟨other, right.thread⟩)) :
    (Sequence.step foreign ⟨none, ⟨routine, params, warp, body :: bodies⟩ :: callers⟩).run.run right =
      (.ok (.more ⟨none, ⟨routine, params, warp, { body with index := body.index + 1 } :: bodies⟩ ::
        callers⟩), ⟨other, right.thread⟩) := by
  have stillRunning : (⟨other, right.thread⟩ : Turn).thread.status = .running := running
  rw [step_instr isInstr, Sequence.execute, bind_assoc, yields.run_bind, bind_assoc, Act.run_bind resolved]
  exact run_leave_caller stillRunning _ _ _

/-- Compiled code calls a procedure. -/
theorem step_call {signature : String} {exprs : List Expr} {values : List Value} {other : Host}
    {callee : Routine}
    (isInstr : routine.instr? body.body body.index = some (.call signature exprs))
    (yields : Yields (exprs.mapM (eval foreign routine params)) right values)
    (resolved : (Sequence.resolve signature).run.run right = (.ok (some callee), ⟨other, right.thread⟩)) :
    (Sequence.step foreign ⟨none, ⟨routine, params, warp, body :: bodies⟩ :: callers⟩).run.run right =
      (.ok (.more ⟨none, .enter callee (bindParams callee.params values)
          (warp || Sequence.inWarp signature) ::
        ⟨routine, params, warp, { body with index := body.index + 1 } :: bodies⟩ :: callers⟩),
        ⟨other, right.thread⟩) := by
  rw [step_instr isInstr, Sequence.execute, bind_assoc, yields.run_bind, bind_assoc, Act.run_bind resolved]
  rfl

/-- What a call block leads to. -/
theorem interpretStep?_call {mutation : Mutation} {proccode : String} {args : Table Value}
    (faces : world.Faces place params id block frame rest left right)
    (opcode : block.opcode = callOpcode) (mutated : block.mutation = some mutation)
    (named : mutation.proccode = some proccode)
    (reads : Reads (readArgs (readSlot foreign depth block) block) left args)
    (step : interpretStep? foreign depth left = some result) :
    result = ((Flow.call? left block args proccode).getD .next).apply left := by
  have isProccode : block.proccode? = some proccode := by simp [Block.proccode?, mutated, named]
  have performs : (StandardBlock.run args .call).perform (.block id) frame.state left =
      (.ok .empty, ⟨left, .block id, frame.state,
        { Signals.none with procedure := some proccode }⟩) := by
    have here : ((left.host.block? left.thread.target id).bind Block.proccode?) = some proccode := by
      rw [faces.found_left, Option.bind_some, isProccode]
    let call : Call := ⟨left, .block id, frame.state, .none⟩
    have itself : Yields (get : Operation Call) call call := rfl
    have site : Yields Operation.blockId? call (some id) := rfl
    change (StandardBlock.runCall >>= fun _ => pure Value.empty).run.run call = _
    unfold StandardBlock.runCall
    rw [bind_assoc, itself.run_bind, bind_assoc, site.run_bind]
    dsimp only
    rw [Option.bind_some, here]
    rfl
  have same : left.onward left.host ({ frame with state := frame.state } :: rest) = left := by
    simp [Turn.onward, ← faces.frames]
  obtain rfl := interpretStep?_standard faces.frames faces.pc faces.found_left reads
    (by rw [opcode]; rfl) performs step
  rw [ofSignals_eq faces.running, same]
  rfl

/-- The thread of the interpreter, as a turn that goes on. -/
theorem World.Faces.onward_eq (faces : world.Faces place params id block frame rest left right) :
    left.onward left.host (frame :: rest) = left := by
  simp [Turn.onward, ← faces.frames]

theorem World.Faces.moveOn_eq (faces : world.Faces place params id block frame rest left right) :
    left.moveOn = left.onward left.host ({ frame with pc := block.next, state := .fresh } :: rest) := by
  have moves : (left.onward left.host (frame :: rest)).moveOn = _ :=
    moveOn_onward faces.pc faces.found_left
  rwa [faces.onward_eq] at moves

/-- The frame of a procedure that the interpreter enters. -/
def Frame.callee (owner : String) (params : Table Value) (warp : Bool) : Frame :=
  { Frame.start owner with warp := warp, params := some params }

theorem World.Faces.apply_call (faces : world.Faces place params id block frame rest left right)
    (owner : String) (table : Table Value) (inWarp : Bool) :
    (Flow.call owner table inWarp).apply left =
      (left.onward left.host (.callee owner table (inWarp || frame.warp) ::
        { frame with pc := block.next, state := .fresh } :: rest), true) := by
  have isWarp : left.thread.inWarp = frame.warp := by simp [Thread.inWarp, faces.frames]
  simp only [Flow.apply, faces.moveOn_eq, isWarp]
  rfl

/-- The flow that a call of a declared procedure leads to. -/
theorem World.Faces.call?_declared (faces : world.Faces place params id block frame rest left right)
    {mutation declared : Mutation} {proccode inner owner : String} {prototype : Block}
    (args : Table Value) (mutated : block.mutation = some mutation)
    (isDeclared : place.target.prototype? proccode = some (inner, prototype))
    (isMutation : prototype.mutation = some declared) (parent : prototype.parent = some owner) :
    Flow.call? left block args proccode = some (.call owner
      (.ofList (declared.names.zip (mutation.ids.map fun id => (args.get? id).getD .empty)))
      declared.isWarp) := by
  obtain ⟨live, isLive, isData⟩ := getElem?_of_map_data faces.turns.hosts.befores faces.isTarget
  simp [Flow.call?, isLive, isData, isDeclared, isMutation, parent, mutated]

theorem World.Faces.call?_missing (faces : world.Faces place params id block frame rest left right)
    {proccode : String} (args : Table Value) (missing : place.target.prototype? proccode = none) :
    Flow.call? left block args proccode = none := by
  obtain ⟨live, isLive, isData⟩ := getElem?_of_map_data faces.turns.hosts.befores faces.isTarget
  simp [Flow.call?, isLive, isData, missing]

/-- Warp is inherited in the same way on both sides. -/
theorem callee_warp {declared : Mutation} {proccode inner : String} {prototype : Block}
    (inherits : place.warp = true → warp = true)
    (isDeclared : place.target.prototype? proccode = some (inner, prototype))
    (isMutation : prototype.mutation = some declared) :
    (warp || Sequence.inWarp ((if place.callsInWarp proccode then "W" else "Z") ++ proccode)) =
      (declared.isWarp || warp) := by
  rw [inWarp_signature, Place.callsInWarp, isDeclared]
  simp only [isMutation, Option.map_some, Option.getD_some]
  cases warp with
  | true => simp
  | false =>
      have outside : place.warp = false := by
        cases isWarp : place.warp with
        | false => rfl
        | true => exact (inherits isWarp).symm
      simp [outside]

/-- Both sides enter a procedure. -/
theorem Stack.enter {declared : Mutation} {values others : List Value} {definition : Block}
    {owner : String} {callee : Routine} {calleeWarp : Bool}
    (behind : Stack place.target .ready place (frame :: rest) ⟨routine, params, warp, bodies⟩ callers)
    (pairs : List.Forall₂ Value.Alike values others) (enough : declared.names.length ≤ values.length)
    (isParams : callee.params = declared.names)
    (code : Code ⟨place.target, declared.names, declared.isWarp⟩ callee definition.next
      (callee.body Routine.entry))
    (isWarp : calleeWarp = (declared.isWarp || frame.warp)) :
    Stack place.target .ready ⟨place.target, declared.names, declared.isWarp⟩
      ({ Frame.callee owner (.ofList (declared.names.zip values)) (declared.isWarp || frame.warp) with
        pc := definition.next, state := .fresh } :: frame :: rest)
      (.enter callee (bindParams callee.params others) calleeWarp)
      (⟨routine, params, warp, bodies⟩ :: callers) := by
  subst isWarp
  rw [isParams]
  refine .procedure (.ready rfl ⟨_, [], (List.append_nil _).symm, code, rfl⟩) rfl ⟨rfl, rfl, rfl⟩
    (binds_of_call pairs enough rfl) (fun inWarp => ?_) rfl behind
  rw [show declared.isWarp = true from inWarp, Bool.true_or]

theorem keepsUp_call {mutation : Mutation} {proccode : String} {exprs : List Expr}
    (sound : world.Sound) (faces : world.Faces place params id block frame rest left right)
    (opcode : block.opcode = callOpcode) (mutated : block.mutation = some mutation)
    (named : mutation.proccode = some proccode)
    (operands : Operands place routine block mutation.ids exprs)
    (isInstr : routine.instr? body.body body.index =
      some (.call ((if place.callsInWarp proccode then "W" else "Z") ++ proccode) exprs))
    (behind : Stack place.target .ready place ({ frame with pc := block.next, state := .fresh } :: rest)
      ⟨routine, params, warp, { body with index := body.index + 1 } :: bodies⟩ callers)
    (step : interpretStep? foreign depth left = some result) :
    KeepsUp world foreign result.1 result.2
      ⟨none, ⟨routine, params, warp, body :: bodies⟩ :: callers⟩ right := by
  obtain ⟨values, others, reads, alike, yields⟩ := faces.operands foreign operands
  obtain rfl := interpretStep?_call faces opcode mutated named (reads depth) step
  obtain ⟨after, live, isAfter, isLive, isData⟩ := faces.exists_after
  have answers := sound.answers _ _ _ faces.isTarget isAfter
  have mem := List.mem_of_getElem? isAfter
  have isProccode := proccodeOf_signature (place.callsInWarp proccode) proccode
  cases isDeclared : place.target.prototype? proccode with
  | none =>
      have missing := isProccode ▸ answers.missing proccode isDeclared
      obtain ⟨other, hosts, resolved⟩ := faces.turns.hosts.run_resolve sound mem isLive isData
        fun support agrees => agrees.resolve_missing missing
      rw [faces.call?_missing _ isDeclared, Option.getD_none, Flow.apply, faces.moveOn_eq]
      exact faces.keepsUp_behind hosts behind
        (step_call_missing faces.turns.running isInstr (mapM_yields yields) resolved)
  | some found =>
      obtain ⟨inner, prototype⟩ := found
      obtain ⟨declared, owner, definition, isMutation, parent, isOwner, passes, isBody⟩ :=
        answers.declared proccode inner prototype isDeclared
      rw [faces.call?_declared _ mutated isDeclared isMutation parent, Option.getD_some,
        faces.apply_call]
      rcases isBody with ⟨noBody, missing⟩ | ⟨marker, text, callee, isMarker, carries, loads, isParams, code⟩
      · obtain ⟨other, hosts, resolved⟩ := faces.turns.hosts.run_resolve sound mem isLive isData
          fun support agrees => agrees.resolve_missing (isProccode ▸ missing)
        refine .steps (step_call_missing faces.turns.running isInstr (mapM_yields yields) resolved)
          (.goes ⟨faces.turns.onward hosts _, faces.running, place.target, faces.isTarget, ?_⟩)
        exact .skipping rfl rfl isOwner passes noBody behind
      · obtain ⟨other, hosts, resolved⟩ := faces.turns.hosts.run_resolve sound mem isLive isData
          fun support agrees => agrees.resolve_present (isProccode ▸ isMarker) carries loads
        refine .steps (step_call isInstr (mapM_yields yields) resolved)
          (.goes ⟨faces.turns.onward hosts _, faces.running, place.target, faces.isTarget, ?_⟩)
        have sameWarp : frame.warp = warp := behind.warp_eq
        have isWarp := callee_warp behind.place_eq.2.1 isDeclared isMutation
        have enough := faces.plain.calls _ (Target.mem_blockList_of_block? faces.found) proccode
          (by simp [Block.proccode?, mutated, named]) _ isDeclared _ isMutation opcode
        have pairs : List.Forall₂ Value.Alike
            (mutation.ids.map fun id => ((block.args values).get? id).getD .empty)
            (mutation.ids.map others) := by
          refine List.forall₂_map_left_iff.mpr (List.forall₂_map_right_iff.mpr ?_)
          exact List.forall₂_same.mpr alike
        refine .entering rfl isOwner passes (behind.enter pairs ?_ isParams code (sameWarp ▸ isWarp))
        simpa [mutated] using enough

end

end StepCode
