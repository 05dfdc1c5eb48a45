import StepCode.Project.Block

/-!
# Projects

A program descriptor: sprites and the stage with their variables, blocks and comments.  Members that
nothing here reads are kept as they are.
-/

namespace StepCode

/-- A workspace comment. -/
structure Comment where
  blockId : Option String
  text : String
  extra : Table Json
deriving Repr, Inhabited

/-- A sprite or the stage. -/
structure Target where
  isStage : Bool
  name : String
  vars : Table Json
  blocks : Table BlockEntry
  comments : Table Comment
  extra : Table Json
deriving Repr, Inhabited

/-- A program descriptor. -/
structure Project where
  targets : List Target
  extensions : List String
  extensionUrls : Table String
  extra : Table Json
deriving Repr, Inhabited

/-- The block stored under `id`. -/
def blockIn (blocks : Table BlockEntry) (id : String) : Option Block :=
  (blocks.get? id).bind BlockEntry.block?

/-- Follow parent links for at most `hops` blocks; whether `root` is met. -/
def leadsTo (blocks : Table BlockEntry) (root : String) : (hops : Nat) → Option String → Bool
  | 0, _ => false
  | _ + 1, none => false
  | hops + 1, some id =>
      id == root || leadsTo blocks root hops ((blockIn blocks id).bind Block.parent)

/-- The ids of `root` and of all blocks whose parent links lead to it, in table order.  No chain of
links through distinct blocks is longer than the table. -/
def scriptBlocks (blocks : Table BlockEntry) (root : String) : List String :=
  (blocks.entries.filter fun (id, entry) =>
    match entry with
    | .primitive _ => false
    | .block block => id == root || leadsTo blocks root (blocks.size + 1) block.parent).map (·.1)

/-- A procedure definition with the prototype it holds. -/
structure Definition where
  id : String
  block : Block
  prototype : Option Block

namespace Target

def block? (target : Target) (id : String) : Option Block := blockIn target.blocks id

/-- The blocks with their ids, in table order; loose reporters are left out. -/
def blockList (target : Target) : List (String × Block) :=
  target.blocks.entries.filterMap fun (id, entry) => entry.block?.map fun block => (id, block)

/-- The procedure definitions, in table order. -/
def definitions (target : Target) : List Definition :=
  target.blockList.filterMap fun (id, block) =>
    if block.opcode = definitionOpcode then
      some ⟨id, block, (block.inputBlock? "custom_block").bind target.block?⟩
    else none

/-- The first prototype with the given signature, with its id. -/
def prototype? (target : Target) (proccode : String) : Option (String × Block) :=
  target.definitions.findSome? fun definition => do
    let prototype ← definition.prototype
    let id ← definition.block.inputBlock? "custom_block"
    if prototype.proccode? = some proccode then some (id, prototype) else none

/-- Names and initial values of the variables. -/
def variableValues (target : Target) : List (String × Json) :=
  target.vars.values.filterMap fun entry =>
    match entry with
    | .array (.text name :: rest) => some (name, rest.headD .null)
    | _ => none

end Target

end StepCode
