import StepCode.Bootstrap
import StepCode.Compiled.OfTarget
import StepCode.Marker
import StepCode.Rebuild.Layout
import StepCode.Rebuild.Report

/-!
# Rebuilding a program

Each compiled body takes the place of the blocks behind its hat or definition; a unit that could not
be compiled keeps its blocks.  The program then ships the helpers its compiled code calls.
-/

namespace StepCode

/-- Copy the script of `root` from one table into another. -/
def addScript (source : Table BlockEntry) (root : String) (output : Table BlockEntry) :
    Table BlockEntry :=
  (scriptBlocks source root).foldl
    (fun output id =>
      match source.get? id with
      | some entry => output.insert id entry
      | none => output)
    output

/-- Copy what hangs off the slots of a block.  For a definition this is the prototype with its
parameters. -/
def addInputs (source : Table BlockEntry) (block : Block) (output : Table BlockEntry) :
    Table BlockEntry :=
  (block.inputs.keys.filterMap block.inputBlock?).foldl
    (fun output root => addScript source root output)
    output

/-- The rebuilt part of a target. -/
structure Progress where
  blocks : Table BlockEntry
  cursor : Layout.Cursor
  report : TargetReport

/-- The text that a marker carries. -/
def markerText (settings : Settings) (body : CompiledBody) : Except String String :=
  if settings.minify then
    (Form.minify body.text).mapError fun e => "cannot size-reduce generated code: " ++ e.message
  else .ok body.text

/-- What a unit needs for its marker: the top block and the text, or the reason why its blocks are
kept. -/
def CompiledUnit.plan (settings : Settings) (source : Target) (compiled : CompiledUnit) :
    Except String (Block × String) := do
  let body ← compiled.result
  match source.block? compiled.top with
  | none => throw s!"block `{compiled.top}` does not exist"
  | some top => return (top, ← markerText settings body)

namespace Progress

/-- Copy the top block to its new place with all that hangs off its slots, and put the marker under
the id of the block that followed.  A top block without a body gets none. -/
def plant (settings : Settings) (source : Target) (id : String) (top : Block) (text : String)
    (progress : Progress) : Progress :=
  let (copy, cursor) := Layout.place settings.grid progress.cursor top
  let blocks := addInputs source.blocks top (progress.blocks.insert id (.block copy))
  let blocks := match top.next with
    | some next => blocks.insert next (.block (.marker id text))
    | none => blocks
  { progress with blocks := blocks, cursor := cursor }

/-- Keep the blocks of a unit as they are. -/
def keep (source : Target) (id reason : String) (progress : Progress) : Progress :=
  { progress with
    blocks := addScript source.blocks id progress.blocks
    report := { progress.report with failures := progress.report.failures ++ [⟨id, reason⟩] } }

def addHat (id : String) (progress : Progress) : Progress :=
  { progress with report := { progress.report with hats := progress.report.hats ++ [id] } }

def addProcedure (id : String) (progress : Progress) : Progress :=
  { progress with
    report := { progress.report with procedures := progress.report.procedures ++ [id] } }

/-- Rebuild one unit; `record` notes that it got a marker. -/
def rebuildUnit (settings : Settings) (source : Target) (record : String → Progress → Progress)
    (progress : Progress) (compiled : CompiledUnit) : Progress :=
  match compiled.plan settings source with
  | .error reason => progress.keep source compiled.top reason
  | .ok (top, text) =>
      let progress := progress.plant settings source compiled.top top text
      if top.next.isSome then record compiled.top progress else progress

end Progress

/-- Rebuild a target.  Of its comments only those of the stage that hold settings are kept. -/
def Target.rebuild (settings : Settings) (target : Target) (results : TargetResults) :
    Target × TargetReport :=
  let start : Progress := ⟨.empty, .start, ⟨target.name, [], [], []⟩⟩
  let afterHats := results.hats.values.foldl
    (Progress.rebuildUnit settings target Progress.addHat) start
  let progress := results.procedures.foldl
    (Progress.rebuildUnit settings target Progress.addProcedure) afterHats
  let comments := target.comments.filter fun _ comment =>
    target.isStage && Text.endsWith comment.text settings.commentSuffix
  ({ target with blocks := progress.blocks, comments := comments }, progress.report)

/-- Keep the extensions in use loaded; without a target there is no place for placeholders. -/
def keepExtensions (newId : List String → String) (source : Project) :
    List Target → List Target × ExtensionReport
  | [] => ([], ⟨[], source.extensions⟩)
  | main :: rest =>
      let (main, report) := plantPlaceholders newId source.targets source.extensions main
      (main :: rest, report)

/-- The extensions of a rebuilt program: those that are kept, and the one that runs compiled code. -/
def rebuiltExtensions (source kept : List String) : List String :=
  let extensions := source.filter kept.contains
  if extensions.contains supportExtension then extensions else extensions ++ [supportExtension]

namespace Project

/-- Put a program together from targets with their results. -/
def assemble (newId : List String → String) (settings : Settings) (helpers : Table String)
    (source : Project) (results : List (Target × TargetResults)) : Project × RebuildReport :=
  let rebuilt := results.map fun (target, results) => target.rebuild settings results
  let (targets, extensions) := keepExtensions newId source (rebuilt.map (·.1))
  let document := Bootstrap.document helpers Bootstrap.currentVersion settings.minify
  ({ source with
      targets := targets
      extensions := rebuiltExtensions source.extensions extensions.kept
      extensionUrls := source.extensionUrls.insert supportExtension (Bootstrap.url document) },
    ⟨rebuilt.map (·.2), extensions⟩)

/-- The results are not for the targets of the program. -/
structure CountMismatch where
  targets : Nat
  results : Nat
deriving DecidableEq, Repr

def CountMismatch.message (mismatch : CountMismatch) : String :=
  s!"compiler produced results for {mismatch.results} targets, the program has {mismatch.targets}"

/-- Rebuild a program from the results for its targets, one for each and in their order. -/
def rebuild (newId : List String → String) (settings : Settings) (helpers : Table String)
    (source : Project) (results : List TargetResults) :
    Except CountMismatch (Project × RebuildReport) :=
  if results.length = source.targets.length then
    .ok (source.assemble newId settings helpers (source.targets.zip results))
  else .error ⟨source.targets.length, results.length⟩

/-- Compile all targets and rebuild the program.  There is no result if compiling never ends. -/
def precompile? (newId : List String → String) (settings : Settings) (source : Project) :
    Option (Project × RebuildReport) := do
  let results ← source.targets.mapM fun target => do return (target, ← target.compile?)
  return source.assemble newId settings compilerHelpers results

end Project

end StepCode
