import StepCode.Project.Basic

/-!
# Reading descriptors

A descriptor is read from its JSON tree member by member.  A known member of the wrong kind, a known
member that comes twice and a required member that is missing are errors; the error says where in
the tree it is, and the first one in reading order counts.
-/

namespace StepCode

/-- A place in the tree, as member and item numbers from the root, and what is wrong there. -/
structure ShapeError where
  path : List Nat
  spot : Json.Spot
deriving DecidableEq, Repr

namespace ShapeError

/-- The same error seen from the container whose part `index` it is in. -/
def under (index : Nat) (error : ShapeError) : ShapeError := { error with path := index :: error.path }

def wrongKind : ShapeError := ⟨[], .value⟩

def missing : ShapeError := ⟨[], .close⟩

def repeated : ShapeError := ⟨[], .key⟩

def noEntry : ShapeError := ⟨[], .entry⟩

end ShapeError

abbrev Shaped (α : Type) := Except ShapeError α

namespace Json

/-- Read the members from number `index` on into a draft. -/
def foldMembers {δ : Type} (step : δ → String → Json → Shaped δ) :
    (index : Nat) → δ → List (String × Json) → Shaped δ
  | _, draft, [] => .ok draft
  | index, draft, (name, value) :: rest =>
      match step draft name value with
      | .error error => .error (error.under index)
      | .ok draft => foldMembers step (index + 1) draft rest

def asObject {δ : Type} (start : δ) (step : δ → String → Json → Shaped δ) : Json → Shaped δ
  | .object members => foldMembers step 0 start members
  | _ => .error .wrongKind

def readItemsWith {α : Type} (read : Json → Shaped α) : (index : Nat) → List Json → Shaped (List α)
  | _, [] => .ok []
  | index, item :: rest =>
      match read item with
      | .error error => .error (error.under index)
      | .ok value => (readItemsWith read (index + 1) rest).map (value :: ·)

def asList {α : Type} (read : Json → Shaped α) : Json → Shaped (List α)
  | .array items => readItemsWith read 0 items
  | _ => .error .wrongKind

def asTable {α : Type} (read : Json → Shaped α) (json : Json) : Shaped (Table α) :=
  json.asObject Table.empty fun table name value => (read value).map (table.insert name)

def asString : Json → Shaped String
  | .text s => .ok s
  | _ => .error .wrongKind

def asBool : Json → Shaped Bool
  | .bool b => .ok b
  | _ => .error .wrongKind

def asNumber (json : Json) : Shaped Float :=
  match json.asFloat? with
  | some x => .ok x
  | none => .error .wrongKind

/-- Any value. -/
def asAny (json : Json) : Shaped Json := .ok json.settle

/-- An optional member may be `null`. -/
def asOption {α : Type} (read : Json → Shaped α) : Json → Shaped (Option α)
  | .null => .ok none
  | json => (read json).map some

end Json

/-- Fill a known member that must not have come before. -/
def fillOnce {α δ : Type} (old : Option α) (read : Json → Shaped α) (value : Json)
    (fill : α → δ) : Shaped δ :=
  if old.isSome then .error .repeated else (read value).map fill

/-- A required member. -/
def required {α : Type} : Option α → Shaped α
  | some value => .ok value
  | none => .error .missing

namespace Mutation

structure Draft where
  proccode : Option (Option String) := none
  argumentIds : Option (Option String) := none
  argumentNames : Option (Option String) := none
  warp : Option (Option Json) := none
  extra : Table Json := .empty

def Draft.step (draft : Draft) (name : String) (value : Json) : Shaped Draft :=
  match name with
  | "proccode" =>
      fillOnce draft.proccode (Json.asOption Json.asString) value
        fun v => { draft with proccode := some v }
  | "argumentids" =>
      fillOnce draft.argumentIds (Json.asOption Json.asString) value
        fun v => { draft with argumentIds := some v }
  | "argumentnames" =>
      fillOnce draft.argumentNames (Json.asOption Json.asString) value
        fun v => { draft with argumentNames := some v }
  | "warp" =>
      fillOnce draft.warp (Json.asOption Json.asAny) value fun v => { draft with warp := some v }
  | _ => .ok { draft with extra := draft.extra.insert name value.settle }

def ofJson (json : Json) : Shaped Mutation := do
  let draft ← json.asObject ({} : Draft) Draft.step
  return {
    proccode := draft.proccode.join
    argumentIds := draft.argumentIds.join
    argumentNames := draft.argumentNames.join
    warp := draft.warp.join
    extra := draft.extra }

end Mutation

namespace Block

structure Draft where
  opcode : Option String := none
  next : Option (Option String) := none
  parent : Option (Option String) := none
  inputs : Option (Table Json) := none
  fields : Option (Table Json) := none
  shadow : Option Bool := none
  topLevel : Option Bool := none
  x : Option (Option Float) := none
  y : Option (Option Float) := none
  mutation : Option (Option Mutation) := none
  extra : Table Json := .empty

def Draft.step (draft : Draft) (name : String) (value : Json) : Shaped Draft :=
  match name with
  | "opcode" => fillOnce draft.opcode Json.asString value fun v => { draft with opcode := some v }
  | "next" =>
      fillOnce draft.next (Json.asOption Json.asString) value fun v => { draft with next := some v }
  | "parent" =>
      fillOnce draft.parent (Json.asOption Json.asString) value
        fun v => { draft with parent := some v }
  | "inputs" =>
      fillOnce draft.inputs (Json.asTable Json.asAny) value fun v => { draft with inputs := some v }
  | "fields" =>
      fillOnce draft.fields (Json.asTable Json.asAny) value fun v => { draft with fields := some v }
  | "shadow" => fillOnce draft.shadow Json.asBool value fun v => { draft with shadow := some v }
  | "topLevel" =>
      fillOnce draft.topLevel Json.asBool value fun v => { draft with topLevel := some v }
  | "x" => fillOnce draft.x (Json.asOption Json.asNumber) value fun v => { draft with x := some v }
  | "y" => fillOnce draft.y (Json.asOption Json.asNumber) value fun v => { draft with y := some v }
  | "mutation" =>
      fillOnce draft.mutation (Json.asOption Mutation.ofJson) value
        fun v => { draft with mutation := some v }
  | _ => .ok { draft with extra := draft.extra.insert name value.settle }

def ofJson (json : Json) : Shaped Block := do
  let draft ← json.asObject ({} : Draft) Draft.step
  return {
    opcode := ← required draft.opcode
    next := draft.next.join
    parent := draft.parent.join
    inputs := draft.inputs.getD .empty
    fields := draft.fields.getD .empty
    shadow := draft.shadow.getD false
    topLevel := draft.topLevel.getD false
    x := draft.x.join
    y := draft.y.join
    mutation := draft.mutation.join
    extra := draft.extra }

end Block

/-- An entry is judged as a whole: whatever is wrong inside, the entry is to blame. -/
def BlockEntry.ofJson : Json → Shaped BlockEntry
  | .array items => .ok (.primitive (Json.settleItems items))
  | json =>
      match Block.ofJson json with
      | .ok b => .ok (.block b)
      | .error _ => .error .noEntry

namespace Comment

structure Draft where
  blockId : Option (Option String) := none
  text : Option String := none
  extra : Table Json := .empty

def Draft.step (draft : Draft) (name : String) (value : Json) : Shaped Draft :=
  match name with
  | "blockId" =>
      fillOnce draft.blockId (Json.asOption Json.asString) value
        fun v => { draft with blockId := some v }
  | "text" => fillOnce draft.text Json.asString value fun v => { draft with text := some v }
  | _ => .ok { draft with extra := draft.extra.insert name value.settle }

def ofJson (json : Json) : Shaped Comment := do
  let draft ← json.asObject ({} : Draft) Draft.step
  return ⟨draft.blockId.join, draft.text.getD "", draft.extra⟩

end Comment

namespace Target

structure Draft where
  isStage : Option Bool := none
  name : Option String := none
  vars : Option (Table Json) := none
  blocks : Option (Table BlockEntry) := none
  comments : Option (Table Comment) := none
  extra : Table Json := .empty

def Draft.step (draft : Draft) (name : String) (value : Json) : Shaped Draft :=
  match name with
  | "isStage" => fillOnce draft.isStage Json.asBool value fun v => { draft with isStage := some v }
  | "name" => fillOnce draft.name Json.asString value fun v => { draft with name := some v }
  | "variables" =>
      fillOnce draft.vars (Json.asTable Json.asAny) value
        fun v => { draft with vars := some v }
  | "blocks" =>
      fillOnce draft.blocks (Json.asTable BlockEntry.ofJson) value
        fun v => { draft with blocks := some v }
  | "comments" =>
      fillOnce draft.comments (Json.asTable Comment.ofJson) value
        fun v => { draft with comments := some v }
  | _ => .ok { draft with extra := draft.extra.insert name value.settle }

def ofJson (json : Json) : Shaped Target := do
  let draft ← json.asObject ({} : Draft) Draft.step
  return {
    isStage := draft.isStage.getD false
    name := ← required draft.name
    vars := draft.vars.getD .empty
    blocks := draft.blocks.getD .empty
    comments := draft.comments.getD .empty
    extra := draft.extra }

end Target

namespace Project

structure Draft where
  targets : Option (List Target) := none
  extensions : Option (List String) := none
  extensionUrls : Option (Table String) := none
  extra : Table Json := .empty

def Draft.step (draft : Draft) (name : String) (value : Json) : Shaped Draft :=
  match name with
  | "targets" =>
      fillOnce draft.targets (Json.asList Target.ofJson) value
        fun v => { draft with targets := some v }
  | "extensions" =>
      fillOnce draft.extensions (Json.asList Json.asString) value
        fun v => { draft with extensions := some v }
  | "extensionURLs" =>
      fillOnce draft.extensionUrls (Json.asTable Json.asString) value
        fun v => { draft with extensionUrls := some v }
  | _ => .ok { draft with extra := draft.extra.insert name value.settle }

def ofJson (json : Json) : Shaped Project := do
  let draft ← json.asObject ({} : Draft) Draft.step
  return {
    targets := ← required draft.targets
    extensions := draft.extensions.getD []
    extensionUrls := draft.extensionUrls.getD .empty
    extra := draft.extra }

/-- Why a text is no descriptor. -/
inductive ErrorKind where
  | malformed
  | truncated
  | shape
deriving DecidableEq, Repr

/-- The kind of error and the number of bytes passed when it was seen. -/
structure ReadError where
  kind : ErrorKind
  offset : Nat
deriving DecidableEq, Repr

def ReadError.ofFault (fault : Json.Fault) : ReadError where
  kind := match fault.defect with
    | .malformed => .malformed
    | .truncated => .truncated
  offset := fault.offset

/-- The error for a wrong shape, unless the text has a fault before the place. -/
def ReadError.ofShape (text : String) (error : ShapeError) : ReadError :=
  match Json.locate error.spot error.path text with
  | .ok offset => ⟨.shape, offset⟩
  | .error fault => .ofFault fault

/-- Read a descriptor.  Of a fault in the text and a wrong shape, the one met first is reported. -/
def read (text : String) : Except ReadError Project :=
  match Json.read text with
  | .ok tree => (ofJson tree).mapError (ReadError.ofShape text)
  | .error broken =>
      match ofJson broken.tree with
      | .ok _ => .error (.ofFault broken.fault)
      | .error error => .error (.ofShape text error)

end Project

end StepCode
