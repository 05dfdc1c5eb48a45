import StepCode.Project.Basic

/-!
# Writing descriptors

The JSON tree of a descriptor: known members in a fixed order, then the others as they came.
-/

namespace StepCode

def Json.ofOption {α : Type} (write : α → Json) : Option α → Json
  | some value => write value
  | none => .null

/-- A member that is left out when there is no value. -/
def Json.optional {α : Type} (name : String) (write : α → Json) : Option α → List (String × Json)
  | some value => [(name, write value)]
  | none => []

def Json.ofTable {α : Type} (write : α → Json) (table : Table α) : Json :=
  .object (table.entries.map fun (name, value) => (name, write value))

def Json.ofTexts (texts : List String) : Json := .array (texts.map .text)

def Mutation.toJson (mutation : Mutation) : Json :=
  .object <|
    Json.optional "proccode" .text mutation.proccode ++
    Json.optional "argumentids" .text mutation.argumentIds ++
    Json.optional "argumentnames" .text mutation.argumentNames ++
    Json.optional "warp" id mutation.warp ++
    mutation.extra.entries

def Block.toJson (block : Block) : Json :=
  .object <|
    [("opcode", .text block.opcode),
      ("next", Json.ofOption .text block.next),
      ("parent", Json.ofOption .text block.parent),
      ("inputs", Json.ofTable id block.inputs),
      ("fields", Json.ofTable id block.fields),
      ("shadow", .bool block.shadow),
      ("topLevel", .bool block.topLevel)] ++
    Json.optional "x" .float block.x ++
    Json.optional "y" .float block.y ++
    Json.optional "mutation" Mutation.toJson block.mutation ++
    block.extra.entries

def BlockEntry.toJson : BlockEntry → Json
  | .block b => b.toJson
  | .primitive items => .array items

def Comment.toJson (comment : Comment) : Json :=
  .object <|
    [("blockId", Json.ofOption .text comment.blockId), ("text", .text comment.text)] ++
    comment.extra.entries

def Target.toJson (target : Target) : Json :=
  .object <|
    [("isStage", .bool target.isStage),
      ("name", .text target.name),
      ("variables", Json.ofTable id target.vars),
      ("blocks", Json.ofTable BlockEntry.toJson target.blocks),
      ("comments", Json.ofTable Comment.toJson target.comments)] ++
    target.extra.entries

def Project.toJson (project : Project) : Json :=
  .object <|
    [("targets", .array (project.targets.map Target.toJson)),
      ("extensions", Json.ofTexts project.extensions)] ++
    (if project.extensionUrls.isEmpty then []
      else [("extensionURLs", Json.ofTable .text project.extensionUrls)]) ++
    project.extra.entries

/-- The text of a descriptor. -/
def Project.write (project : Project) : String := project.toJson.compact

end StepCode
