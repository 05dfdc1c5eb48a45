import StepCode.Proofs.Project.Trees
import StepCode.Proofs.Sequencing

/-!
# Descriptors that read back

What is read from a tree is orderly: no name comes twice, values are settled, and the members that are
kept for nobody have none of the known names.  Whatever is orderly reads back from the tree that is
written for it.
-/

namespace StepCode

/-! ## Members of records -/

/-- Settled members none of which has a known name. -/
structure Table.Rest (known : List String) (table : Table Json) : Prop where
  orderly : table.Orderly Json.Settled
  unknown : ∀ name ∈ table.keys, name ∉ known

theorem Table.Rest.empty {known : List String} : (Table.empty : Table Json).Rest known where
  orderly := .empty
  unknown _ mem := absurd mem List.not_mem_nil

theorem Table.Rest.insert {known : List String} {table : Table Json} (rest : table.Rest known)
    {name : String} (unknown : name ∉ known) (value : Json) :
    (table.insert name value.settle).Rest known where
  orderly := rest.orderly.insert (Json.settled_settle value)
  unknown other mem := by
    rcases Table.mem_keys_insert.mp mem with rfl | before
    · exact unknown
    · exact rest.unknown other before

/-- Unknown members are read back as they were written. -/
theorem Table.Rest.read {known : List String} {table : Table Json} (rest : table.Rest known)
    {δ : Type} {step : δ → String → Json → Shaped δ} (put : Table Json → δ)
    (enters : ∀ before name value, name ∉ known →
      step (put before) name value = .ok (put (before.insert name value.settle))) (index : Nat) :
    Json.foldMembers step index (put .empty) table.entries = .ok (put table) := by
  have written : table.entries.map (fun entry => (entry.1, id entry.2)) = table.entries := List.map_id _
  rw [← written]
  refine Json.foldMembers_entries put rest.orderly.distinct fun before entry mem => ?_
  have settled : entry.2.settle = entry.2 := rest.orderly.values entry mem
  rw [enters before entry.1 _ (rest.unknown entry.1 (List.mem_map_of_mem mem)), id, settled]

theorem Json.settle_eq_null {json : Json} (isNull : json.settle = .null) : json = .null := by
  cases json with
  | null => rfl
  | _ => simp [settle] at isNull

theorem Json.orderly_of_asTable {json : Json} {table : Table Json} (read : asTable asAny json = .ok table) :
    table.Orderly Settled :=
  asTable_orderly (fun json _ isValue => Except.ok.inj isValue ▸ settled_settle json) read

theorem Json.asTable_settled {table : Table Json} (orderly : table.Orderly Settled) :
    asTable asAny (ofTable id table) = .ok table :=
  asTable_ofTable (orderly.mono fun _ settled => congrArg Except.ok settled)

/-- A table that is missing has no entries. -/
theorem Table.orderly_getD {α : Type} {good : α → Prop} {table : Option (Table α)}
    (orderly : ∀ found, table = some found → found.Orderly good) :
    (table.getD .empty).Orderly good := by
  cases table with
  | none => exact .empty
  | some found => exact orderly found rfl

theorem fillOnce_eq_ok {α δ : Type} {old : Option α} {read : Json → Shaped α} {value : Json}
    {fill : α → δ} {after : δ} (filled : fillOnce old read value fill = .ok after) :
    ∃ content, read value = .ok content ∧ after = fill content := by
  unfold fillOnce at filled
  split at filled
  · simp at filled
  · cases here : read value with
    | error error => simp [here, Except.map] at filled
    | ok content =>
        rw [here] at filled
        exact ⟨content, rfl, (Except.ok.inj filled).symm⟩

/-! ## Mutations -/

namespace Mutation

def known : List String := ["proccode", "argumentids", "argumentnames", "warp"]

structure Orderly (mutation : Mutation) : Prop where
  warp : ∀ value, mutation.warp = some value → value ≠ .null ∧ value.Settled
  extra : mutation.extra.Rest known

structure Draft.Orderly (draft : Draft) : Prop where
  warp : ∀ value, draft.warp = some (some value) → value ≠ .null ∧ value.Settled
  extra : draft.extra.Rest known

theorem Draft.step_of_unknown {draft : Draft} {name : String} {value : Json} (unknown : name ∉ known) :
    draft.step name value = .ok { draft with extra := draft.extra.insert name value.settle } := by
  unfold Draft.step
  split <;> first | rfl | exact absurd (by decide) unknown

theorem Draft.Orderly.step {draft after : Draft} {name : String} {value : Json}
    (orderly : draft.Orderly) (read : draft.step name value = .ok after) : after.Orderly := by
  unfold Draft.step at read
  split at read
  case h_5 =>
    have unknown : name ∉ known := by simp_all [known]
    exact Except.ok.inj read ▸ ⟨orderly.warp, orderly.extra.insert unknown value⟩
  all_goals obtain ⟨content, isContent, rfl⟩ := fillOnce_eq_ok read
  case h_4 =>
    refine ⟨fun value isValue => ?_, orderly.extra⟩
    obtain rfl := Option.some.inj isValue
    rcases Json.asOption_cases isContent with missing | ⟨inner, same, notNull, settled⟩
    · simp at missing
    · obtain rfl := Option.some.inj same
      obtain rfl := Except.ok.inj settled
      exact ⟨fun isNull => notNull (Json.settle_eq_null isNull), Json.settled_settle _⟩
  all_goals exact ⟨orderly.warp, orderly.extra⟩

/-- What is read is orderly. -/
theorem orderly_of_ofJson {json : Json} {mutation : Mutation} (read : ofJson json = .ok mutation) :
    mutation.Orderly := by
  obtain ⟨draft, isDraft, isMutation⟩ := bind_eq_ok.mp read
  obtain rfl := Except.ok.inj isMutation
  have start : ({} : Draft).Orderly := ⟨by simp, .empty⟩
  have orderly : draft.Orderly := Json.asObject_keeps (fun _ _ _ _ => Draft.Orderly.step) start isDraft
  exact ⟨fun value isValue => orderly.warp value (Option.join_eq_some_iff.mp isValue), orderly.extra⟩

theorem ofJson_toJson {mutation : Mutation} (orderly : mutation.Orderly) :
    ofJson mutation.toJson = .ok mutation := by
  obtain ⟨proccode, ids, names, warp, extra⟩ := mutation
  let signature : List (String × Json) := Json.optional "proccode" .text proccode
  let withIds := signature ++ Json.optional "argumentids" .text ids
  let withNames := withIds ++ Json.optional "argumentnames" .text names
  let withWarp := withNames ++ Json.optional "warp" id warp
  have first : Json.foldMembers Draft.step 0 {} signature =
      .ok { proccode := proccode.map some } := by
    cases proccode <;> rfl
  have second : Json.foldMembers Draft.step 0 {} withIds =
      .ok { proccode := proccode.map some, argumentIds := ids.map some } :=
    (Json.foldMembers_append first).trans (by cases ids <;> rfl)
  have third : Json.foldMembers Draft.step 0 {} withNames =
      .ok { proccode := proccode.map some, argumentIds := ids.map some,
            argumentNames := names.map some } :=
    (Json.foldMembers_append second).trans (by cases names <;> rfl)
  let draft (extra : Table Json) : Draft :=
    ⟨proccode.map some, ids.map some, names.map some, warp.map some, extra⟩
  have fourth : Json.foldMembers Draft.step 0 {} withWarp = .ok (draft .empty) := by
    refine (Json.foldMembers_append third).trans ?_
    cases warp with
    | none => rfl
    | some value =>
        obtain ⟨notNull, settled⟩ := orderly.warp value rfl
        have read : Json.asOption Json.asAny value = .ok (some value) := by
          rw [Json.asOption_of_ne_null notNull, Json.asAny, show value.settle = value from settled]
          rfl
        simp [Json.optional, Json.foldMembers, Draft.step, fillOnce, read, Except.map, draft]
  have last := orderly.extra.read draft (fun before name value => Draft.step_of_unknown)
    (0 + withWarp.length)
  have read : Json.asObject ({} : Draft) Draft.step (toJson ⟨proccode, ids, names, warp, extra⟩) =
      .ok (draft extra) :=
    (Json.foldMembers_append fourth).trans last
  rw [ofJson, read]
  cases proccode <;> cases ids <;> cases names <;> cases warp <;> rfl

end Mutation

/-! ## Blocks -/

namespace Block

def known : List String :=
  ["opcode", "next", "parent", "inputs", "fields", "shadow", "topLevel", "x", "y", "mutation"]

structure Orderly (block : Block) : Prop where
  inputs : block.inputs.Orderly Json.Settled
  fields : block.fields.Orderly Json.Settled
  mutation : ∀ mutation, block.mutation = some mutation → mutation.Orderly
  extra : block.extra.Rest known

structure Draft.Orderly (draft : Draft) : Prop where
  inputs : ∀ table, draft.inputs = some table → table.Orderly Json.Settled
  fields : ∀ table, draft.fields = some table → table.Orderly Json.Settled
  mutation : ∀ mutation, draft.mutation = some (some mutation) → mutation.Orderly
  extra : draft.extra.Rest known

theorem Draft.step_of_unknown {draft : Draft} {name : String} {value : Json} (unknown : name ∉ known) :
    draft.step name value = .ok { draft with extra := draft.extra.insert name value.settle } := by
  unfold Draft.step
  split <;> first | rfl | exact absurd (by decide) unknown

theorem Draft.Orderly.step {draft after : Draft} {name : String} {value : Json}
    (orderly : draft.Orderly) (read : draft.step name value = .ok after) : after.Orderly := by
  obtain ⟨inputs, fields, mutation, extra⟩ := orderly
  unfold Draft.step at read
  split at read
  case h_11 =>
    have unknown : name ∉ known := by simp_all [known]
    exact Except.ok.inj read ▸ ⟨inputs, fields, mutation, extra.insert unknown value⟩
  all_goals obtain ⟨content, isContent, rfl⟩ := fillOnce_eq_ok read
  case h_4 => exact ⟨by rintro _ ⟨⟩; exact Json.orderly_of_asTable isContent, fields, mutation, extra⟩
  case h_5 => exact ⟨inputs, by rintro _ ⟨⟩; exact Json.orderly_of_asTable isContent, mutation, extra⟩
  case h_10 =>
    refine ⟨inputs, fields, fun mutation isMutation => ?_, extra⟩
    obtain rfl := Option.some.inj isMutation
    rcases Json.asOption_cases isContent with missing | ⟨inner, same, -, isInner⟩
    · simp at missing
    · exact Option.some.inj same ▸ Mutation.orderly_of_ofJson isInner
  all_goals exact ⟨inputs, fields, mutation, extra⟩

theorem orderly_of_ofJson {json : Json} {block : Block} (read : ofJson json = .ok block) :
    block.Orderly := by
  obtain ⟨draft, isDraft, rest⟩ := bind_eq_ok.mp read
  obtain ⟨opcode, -, isBlock⟩ := bind_eq_ok.mp rest
  obtain rfl := Except.ok.inj isBlock
  have start : ({} : Draft).Orderly := ⟨by simp, by simp, by simp, .empty⟩
  have orderly : draft.Orderly := Json.asObject_keeps (fun _ _ _ _ => Draft.Orderly.step) start isDraft
  exact ⟨Table.orderly_getD orderly.inputs, Table.orderly_getD orderly.fields,
    fun mutation isMutation => orderly.mutation mutation (Option.join_eq_some_iff.mp isMutation),
    orderly.extra⟩

theorem ofJson_toJson {block : Block} (orderly : block.Orderly) : ofJson block.toJson = .ok block := by
  obtain ⟨opcode, next, parent, inputs, fields, shadow, topLevel, x, y, mutation, extra⟩ := block
  let always : List (String × Json) :=
    [("opcode", .text opcode), ("next", Json.ofOption .text next),
      ("parent", Json.ofOption .text parent), ("inputs", Json.ofTable id inputs),
      ("fields", Json.ofTable id fields), ("shadow", .bool shadow), ("topLevel", .bool topLevel)]
  let withX := always ++ Json.optional "x" .float x
  let withY := withX ++ Json.optional "y" .float y
  let withMutation := withY ++ Json.optional "mutation" Mutation.toJson mutation
  let draft (x y : Option Float) (mutation : Option Mutation) (extra : Table Json) : Draft :=
    ⟨some opcode, some next, some parent, some inputs, some fields, some shadow, some topLevel,
      x.map some, y.map some, mutation.map some, extra⟩
  have first : Json.foldMembers Draft.step 0 {} always = .ok (draft none none none .empty) := by
    have isInputs := Json.asTable_settled orderly.inputs
    have isFields := Json.asTable_settled orderly.fields
    dsimp only at isInputs isFields
    cases next <;> cases parent <;>
      simp [always, draft, Json.foldMembers, Draft.step, fillOnce, Except.map, Json.asString,
        Json.asBool, Json.asOption, Json.ofOption, isInputs, isFields]
  have second : Json.foldMembers Draft.step 0 {} withX = .ok (draft x none none .empty) :=
    (Json.foldMembers_append first).trans (by cases x <;> rfl)
  have third : Json.foldMembers Draft.step 0 {} withY = .ok (draft x y none .empty) :=
    (Json.foldMembers_append second).trans (by cases y <;> rfl)
  have fourth : Json.foldMembers Draft.step 0 {} withMutation = .ok (draft x y mutation .empty) := by
    refine (Json.foldMembers_append third).trans ?_
    cases mutation with
    | none => rfl
    | some mutation =>
        have read : Json.asOption Mutation.ofJson mutation.toJson = .ok (some mutation) := by
          have isMutation := Mutation.ofJson_toJson (orderly.mutation mutation rfl)
          rw [Json.asOption_of_ne_null (by simp [Mutation.toJson]), isMutation]
          rfl
        simp [Json.optional, Json.foldMembers, Draft.step, fillOnce, read, Except.map, draft]
  have last := orderly.extra.read (draft x y mutation) (fun before name value => Draft.step_of_unknown)
    (0 + withMutation.length)
  have read : Json.asObject ({} : Draft) Draft.step
      (toJson ⟨opcode, next, parent, inputs, fields, shadow, topLevel, x, y, mutation, extra⟩) =
      .ok (draft x y mutation extra) :=
    (Json.foldMembers_append fourth).trans last
  rw [ofJson, read]
  cases x <;> cases y <;> cases mutation <;> rfl

end Block

/-- What is read as an entry is orderly. -/
def BlockEntry.Orderly : BlockEntry → Prop
  | .block content => content.Orderly
  | .primitive items => ∀ item ∈ items, item.Settled

theorem BlockEntry.orderly_of_ofJson {json : Json} {entry : BlockEntry} (read : ofJson json = .ok entry) :
    entry.Orderly := by
  unfold ofJson at read
  split at read
  next items =>
    obtain rfl := Except.ok.inj read
    intro item mem
    rw [Json.settleItems_eq_map] at mem
    obtain ⟨source, -, rfl⟩ := List.mem_map.mp mem
    exact Json.settled_settle source
  next =>
    split at read
    next block here => exact Except.ok.inj read ▸ Block.orderly_of_ofJson here
    next => simp at read

theorem BlockEntry.ofJson_toJson {entry : BlockEntry} (orderly : entry.Orderly) :
    ofJson entry.toJson = .ok entry := by
  cases entry with
  | block block =>
      have isBlock := Block.ofJson_toJson orderly
      unfold ofJson toJson
      split
      next items isArray => simp [Block.toJson] at isArray
      next => rw [isBlock]
  | primitive items =>
      have settled : Json.settleItems items = items := by
        rw [Json.settleItems_eq_map]
        exact (List.map_congr_left orderly).trans (List.map_id _)
      rw [toJson, ofJson, settled]

/-! ## Comments -/

namespace Comment

def known : List String := ["blockId", "text"]

structure Orderly (comment : Comment) : Prop where
  extra : comment.extra.Rest known

structure Draft.Orderly (draft : Draft) : Prop where
  extra : draft.extra.Rest known

theorem Draft.step_of_unknown {draft : Draft} {name : String} {value : Json} (unknown : name ∉ known) :
    draft.step name value = .ok { draft with extra := draft.extra.insert name value.settle } := by
  unfold Draft.step
  split <;> first | rfl | exact absurd (by decide) unknown

theorem Draft.Orderly.step {draft after : Draft} {name : String} {value : Json}
    (orderly : draft.Orderly) (read : draft.step name value = .ok after) : after.Orderly := by
  unfold Draft.step at read
  split at read
  case h_3 =>
    have unknown : name ∉ known := by simp_all [known]
    exact Except.ok.inj read ▸ ⟨orderly.extra.insert unknown value⟩
  all_goals obtain ⟨content, isContent, rfl⟩ := fillOnce_eq_ok read
  all_goals exact ⟨orderly.extra⟩

theorem orderly_of_ofJson {json : Json} {comment : Comment} (read : ofJson json = .ok comment) :
    comment.Orderly := by
  obtain ⟨draft, isDraft, isComment⟩ := bind_eq_ok.mp read
  obtain rfl := Except.ok.inj isComment
  have start : ({} : Draft).Orderly := ⟨.empty⟩
  have orderly : draft.Orderly := Json.asObject_keeps (fun _ _ _ _ => Draft.Orderly.step) start isDraft
  exact ⟨orderly.extra⟩

theorem ofJson_toJson {comment : Comment} (orderly : comment.Orderly) :
    ofJson comment.toJson = .ok comment := by
  obtain ⟨blockId, text, extra⟩ := comment
  let always : List (String × Json) := [("blockId", Json.ofOption .text blockId), ("text", .text text)]
  let draft (extra : Table Json) : Draft := ⟨some blockId, some text, extra⟩
  have first : Json.foldMembers Draft.step 0 {} always = .ok (draft .empty) := by
    cases blockId <;> rfl
  have last := orderly.extra.read draft (fun before name value => Draft.step_of_unknown)
    (0 + always.length)
  have read : Json.asObject ({} : Draft) Draft.step (toJson ⟨blockId, text, extra⟩) = .ok (draft extra) :=
    (Json.foldMembers_append first).trans last
  rw [ofJson, read]
  rfl

end Comment

/-! ## Targets -/

namespace Target

def known : List String := ["isStage", "name", "variables", "blocks", "comments"]

structure Orderly (target : Target) : Prop where
  vars : target.vars.Orderly Json.Settled
  blocks : target.blocks.Orderly BlockEntry.Orderly
  comments : target.comments.Orderly Comment.Orderly
  extra : target.extra.Rest known

structure Draft.Orderly (draft : Draft) : Prop where
  vars : ∀ table, draft.vars = some table → table.Orderly Json.Settled
  blocks : ∀ table, draft.blocks = some table → table.Orderly BlockEntry.Orderly
  comments : ∀ table, draft.comments = some table → table.Orderly Comment.Orderly
  extra : draft.extra.Rest known

theorem Draft.step_of_unknown {draft : Draft} {name : String} {value : Json} (unknown : name ∉ known) :
    draft.step name value = .ok { draft with extra := draft.extra.insert name value.settle } := by
  unfold Draft.step
  split <;> first | rfl | exact absurd (by decide) unknown

theorem Draft.Orderly.step {draft after : Draft} {name : String} {value : Json}
    (orderly : draft.Orderly) (read : draft.step name value = .ok after) : after.Orderly := by
  obtain ⟨vars, blocks, comments, extra⟩ := orderly
  unfold Draft.step at read
  split at read
  case h_6 =>
    have unknown : name ∉ known := by simp_all [known]
    exact Except.ok.inj read ▸ ⟨vars, blocks, comments, extra.insert unknown value⟩
  all_goals obtain ⟨content, isContent, rfl⟩ := fillOnce_eq_ok read
  case h_3 => exact ⟨by rintro _ ⟨⟩; exact Json.orderly_of_asTable isContent, blocks, comments, extra⟩
  case h_4 =>
    have found : content.Orderly BlockEntry.Orderly :=
      Json.asTable_orderly (fun _ _ => BlockEntry.orderly_of_ofJson) isContent
    exact ⟨vars, by rintro _ ⟨⟩; exact found, comments, extra⟩
  case h_5 =>
    have found : content.Orderly Comment.Orderly :=
      Json.asTable_orderly (fun _ _ => Comment.orderly_of_ofJson) isContent
    exact ⟨vars, blocks, by rintro _ ⟨⟩; exact found, extra⟩
  all_goals exact ⟨vars, blocks, comments, extra⟩

theorem orderly_of_ofJson {json : Json} {target : Target} (read : ofJson json = .ok target) :
    target.Orderly := by
  obtain ⟨draft, isDraft, rest⟩ := bind_eq_ok.mp read
  obtain ⟨name, -, isTarget⟩ := bind_eq_ok.mp rest
  obtain rfl := Except.ok.inj isTarget
  have start : ({} : Draft).Orderly := ⟨by simp, by simp, by simp, .empty⟩
  have orderly : draft.Orderly := Json.asObject_keeps (fun _ _ _ _ => Draft.Orderly.step) start isDraft
  exact ⟨Table.orderly_getD orderly.vars, Table.orderly_getD orderly.blocks,
    Table.orderly_getD orderly.comments, orderly.extra⟩

theorem ofJson_toJson {target : Target} (orderly : target.Orderly) :
    ofJson target.toJson = .ok target := by
  obtain ⟨isStage, name, vars, blocks, comments, extra⟩ := target
  let always : List (String × Json) :=
    [("isStage", .bool isStage), ("name", .text name), ("variables", Json.ofTable id vars),
      ("blocks", Json.ofTable BlockEntry.toJson blocks),
      ("comments", Json.ofTable Comment.toJson comments)]
  let draft (extra : Table Json) : Draft :=
    ⟨some isStage, some name, some vars, some blocks, some comments, extra⟩
  have first : Json.foldMembers Draft.step 0 {} always = .ok (draft .empty) := by
    have isVars := Json.asTable_settled orderly.vars
    have isBlocks := Json.asTable_ofTable (orderly.blocks.mono fun _ => BlockEntry.ofJson_toJson)
    have isComments := Json.asTable_ofTable (orderly.comments.mono fun _ => Comment.ofJson_toJson)
    dsimp only at isVars isBlocks isComments
    simp [always, draft, Json.foldMembers, Draft.step, fillOnce, Except.map, Json.asString, Json.asBool,
      isVars, isBlocks, isComments]
  have last := orderly.extra.read draft (fun before name value => Draft.step_of_unknown)
    (0 + always.length)
  have read : Json.asObject ({} : Draft) Draft.step
      (toJson ⟨isStage, name, vars, blocks, comments, extra⟩) = .ok (draft extra) :=
    (Json.foldMembers_append first).trans last
  rw [ofJson, read]
  rfl

end Target

/-! ## Projects -/

namespace Project

def known : List String := ["targets", "extensions", "extensionURLs"]

structure Orderly (project : Project) : Prop where
  targets : ∀ target ∈ project.targets, target.Orderly
  extensionUrls : project.extensionUrls.keys.Nodup
  extra : project.extra.Rest known

structure Draft.Orderly (draft : Draft) : Prop where
  targets : ∀ targets, draft.targets = some targets → ∀ target ∈ targets, target.Orderly
  extensionUrls : ∀ table, draft.extensionUrls = some table → table.Orderly fun _ => True
  extra : draft.extra.Rest known

theorem Draft.step_of_unknown {draft : Draft} {name : String} {value : Json} (unknown : name ∉ known) :
    draft.step name value = .ok { draft with extra := draft.extra.insert name value.settle } := by
  unfold Draft.step
  split <;> first | rfl | exact absurd (by decide) unknown

theorem Draft.Orderly.step {draft after : Draft} {name : String} {value : Json}
    (orderly : draft.Orderly) (read : draft.step name value = .ok after) : after.Orderly := by
  obtain ⟨targets, extensionUrls, extra⟩ := orderly
  unfold Draft.step at read
  split at read
  case h_4 =>
    have unknown : name ∉ known := by simp_all [known]
    exact Except.ok.inj read ▸ ⟨targets, extensionUrls, extra.insert unknown value⟩
  all_goals obtain ⟨content, isContent, rfl⟩ := fillOnce_eq_ok read
  case h_1 =>
    have found := Json.asList_forall (fun _ _ => Target.orderly_of_ofJson) isContent
    exact ⟨by rintro _ ⟨⟩; exact found, extensionUrls, extra⟩
  case h_3 =>
    have found : content.Orderly fun _ => True := Json.asTable_orderly (fun _ _ _ => trivial) isContent
    exact ⟨targets, by rintro _ ⟨⟩; exact found, extra⟩
  all_goals exact ⟨targets, extensionUrls, extra⟩

/-- Whatever is read from a tree is orderly. -/
theorem orderly_of_ofJson {json : Json} {project : Project} (read : ofJson json = .ok project) :
    project.Orderly := by
  obtain ⟨draft, isDraft, rest⟩ := bind_eq_ok.mp read
  obtain ⟨targets, isTargets, isProject⟩ := bind_eq_ok.mp rest
  obtain rfl := Except.ok.inj isProject
  have start : ({} : Draft).Orderly := ⟨by simp, by simp, .empty⟩
  have orderly : draft.Orderly := Json.asObject_keeps (fun _ _ _ _ => Draft.Orderly.step) start isDraft
  refine ⟨orderly.targets targets ?_, (Table.orderly_getD orderly.extensionUrls).distinct, orderly.extra⟩
  cases found : draft.targets with
  | none => simp [required, found] at isTargets
  | some value => simpa [required, found] using isTargets

/-- Whatever is orderly reads back from its tree. -/
theorem ofJson_toJson {project : Project} (orderly : project.Orderly) :
    ofJson project.toJson = .ok project := by
  obtain ⟨targets, extensions, extensionUrls, extra⟩ := project
  let always : List (String × Json) :=
    [("targets", .array (targets.map Target.toJson)), ("extensions", Json.ofTexts extensions)]
  let urls : List (String × Json) := if extensionUrls.isEmpty then []
    else [("extensionURLs", Json.ofTable .text extensionUrls)]
  let known : Option (Table String) := if extensionUrls.isEmpty then none else some extensionUrls
  let draft (known : Option (Table String)) (extra : Table Json) : Draft :=
    ⟨some targets, some extensions, known, extra⟩
  have first : Json.foldMembers Draft.step 0 {} always = .ok (draft none .empty) := by
    have isTargets : Json.asList Target.ofJson (.array (targets.map Target.toJson)) = .ok targets :=
      Json.readItemsWith_map fun target mem => Target.ofJson_toJson (orderly.targets target mem)
    have isExtensions : Json.asList Json.asString (Json.ofTexts extensions) = .ok extensions :=
      Json.readItemsWith_map fun _ _ => rfl
    simp [always, draft, Json.foldMembers, Draft.step, fillOnce, Except.map, isTargets, isExtensions]
  have second : Json.foldMembers Draft.step 0 {} (always ++ urls) = .ok (draft known .empty) := by
    refine (Json.foldMembers_append first).trans ?_
    have isUrls : Json.asTable Json.asString (Json.ofTable .text extensionUrls) = .ok extensionUrls :=
      Json.asTable_ofTable ⟨orderly.extensionUrls, fun _ _ => rfl⟩
    cases empty : extensionUrls.isEmpty with
    | true => simp [urls, known, empty, Json.foldMembers]
    | false =>
        simp [urls, known, empty, draft, Json.foldMembers, Draft.step, fillOnce, Except.map, isUrls]
  have last := orderly.extra.read (draft known) (fun before name value => Draft.step_of_unknown)
    (0 + (always ++ urls).length)
  have read : Json.asObject ({} : Draft) Draft.step (toJson ⟨targets, extensions, extensionUrls, extra⟩) =
      .ok (draft known extra) :=
    (Json.foldMembers_append second).trans last
  have isKnown : known.getD .empty = extensionUrls := by
    obtain ⟨entries⟩ := extensionUrls
    cases entries <;> rfl
  rw [ofJson, read]
  exact congrArg (fun urls => Except.ok (Project.mk targets extensions urls extra)) isKnown

end Project

end StepCode
