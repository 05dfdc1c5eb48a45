import StepCode.CommandLine.Arguments
import StepCode.Files
import StepCode.Toml.Position

/-!
# The command line

`build` rebuilds a program from one file into another, `check` reads a file of step code.  Errors go
to the error stream; one in a file is followed by the place of the fault.
-/

namespace StepCode.CommandLine

/-- What a command leaves behind besides files. -/
structure Outcome where
  exit : Nat
  output : String
  errors : List String
deriving DecidableEq, Repr

def Outcome.done : Outcome := ⟨0, "", []⟩

def Outcome.failed (errors : List String) : Outcome := ⟨1, "", errors⟩

/-- A fault in a file: the message, and the place counted from one. -/
def diagnostic (message file : String) (position : Text.Position) : List String :=
  [s!"error: {message}", s!"  ┌─ {file}:{position.line + 1}:{position.column + 1}"]

/-- The place of a fault in a descriptor: the last byte that was passed, on the same line. -/
def descriptorPosition (text : String) (offset : Nat) : Text.Position :=
  let start := max (offset - 1) (Text.lineStart text offset)
  Text.positionAt text (min start text.utf8ByteSize)

def SettingsError.lines : SettingsError → List String
  | .unreadable path reason => [s!"error: cannot read config file {path}: {reason}"]
  | .invalid text offset =>
      let position := Toml.faultPosition text offset
      let place := s!"line {position.line + 1}, column {position.column + 1}"
      ["error: invalid config: TOML parse error at " ++ place, "  |"]

section

variable {m : Type → Type} [Monad m]

/-- Load the settings that the options name. -/
def settingsFor (files : FileAccess m) : Option String → m (Except SettingsError Settings)
  | some path => loadSettings files path
  | none => return .ok .default

/-- Write the report if it is wanted. -/
def writeReport (files : FileAccess m) (report : RebuildReport) : Option String → m Outcome
  | none => return .done
  | some path => do
      match ← files.write path (report.toJson.indented 0) with
      | .ok () => return .done
      | .error reason => return .failed [s!"error: cannot write report '{path}': {reason}"]

def build (files : FileAccess m) (newId : List String → String) (options : BuildOptions) :
    m Outcome := do
  match ← settingsFor files options.config with
  | .error error => return .failed (SettingsError.lines error)
  | .ok settings =>
      match ← files.read options.source with
      | .error reason => return .failed [s!"error: cannot read '{options.source}': {reason}"]
      | .ok text =>
          match Project.read text with
          | .error error =>
              return .failed (diagnostic "invalid program descriptor" options.source
                (descriptorPosition text error.offset))
          | .ok project =>
              match project.precompile? newId settings with
              | none => return .failed ["error: a block is nested in itself"]
              | some (project, report) =>
                  match ← files.write options.dest project.write with
                  | .error reason =>
                      return .failed [s!"error: cannot write '{options.dest}': {reason}"]
                  | .ok () => writeReport files report options.report

/-- The canonical layout of a file of step code. -/
def canonical (helper : Bool) (source : String) : Except ParseError String :=
  if helper then (Helper.parse source).map Helper.print else (Script.parse source).map Script.print

def check (files : FileAccess m) (options : CheckOptions) : m Outcome := do
  match ← files.read options.file with
  | .error reason => return .failed [s!"error: cannot read '{options.file}': {reason}"]
  | .ok source =>
      match canonical options.helper source with
      | .error error =>
          return .failed (diagnostic error.problem.message options.file
            (Text.positionAt source error.span.start))
      | .ok text =>
          if options.pretty then return ⟨0, text ++ "\n", []⟩
          else return ⟨0, "", [s!"ok: {options.file} parsed successfully"]⟩

end

def helpText : Topic → String
  | .general =>
      "Ahead-of-time compiler for block programs\n\n" ++
      "Usage: precomp [OPTIONS] <COMMAND>\n\n" ++
      "Commands:\n" ++
      "  build  Rebuild a program descriptor with compiled code\n" ++
      "  check  Parse a step-code file and report syntax errors\n" ++
      "  help   Print this message or the help of the given subcommand(s)\n\n" ++
      "Options:\n" ++
      "      --no-color  Disable colored error output\n" ++
      "  -h, --help      Print help\n" ++
      "  -V, --version   Print version\n"
  | .build =>
      "Rebuild a program descriptor with compiled code\n\n" ++
      "Usage: precomp build [OPTIONS] <SOURCE> <DEST>\n\n" ++
      "Arguments:\n" ++
      "  <SOURCE>  Program descriptor to read (project.json)\n" ++
      "  <DEST>    Where to write the rebuilt descriptor\n\n" ++
      "Options:\n" ++
      "  -c, --config <CONFIG>  TOML file with rebuild settings\n" ++
      "      --no-color         Disable colored error output\n" ++
      "      --report <REPORT>  Also write the rebuild report as JSON\n" ++
      "  -h, --help             Print help\n"
  | .check =>
      "Parse a step-code file and report syntax errors\n\n" ++
      "Usage: precomp check [OPTIONS] <FILE>\n\n" ++
      "Arguments:\n" ++
      "  <FILE>  Step-code source file\n\n" ++
      "Options:\n" ++
      "      --helper    The file holds a helper definition instead of a unit\n" ++
      "      --no-color  Disable colored error output\n" ++
      "      --pretty    Print the parsed code back in canonical layout\n" ++
      "  -h, --help      Print help\n"
  | .help =>
      "Print this message or the help of the given subcommand(s)\n\n" ++
      "Usage: precomp help [COMMAND]...\n\n" ++
      "Arguments:\n" ++
      "  [COMMAND]...  Print help for the subcommand(s)\n"

/-- Carry out what the arguments ask for.  Arguments that are not understood are a fault of their
own, with exit code 2. -/
def run {m : Type → Type} [Monad m] (files : FileAccess m) (newId : List String → String)
    (arguments : List String) : m Outcome :=
  match Command.ofArguments? arguments with
  | none =>
      return ⟨2, "", ["error: unexpected arguments", "", "For more information, try '--help'."]⟩
  | some (.build options) => build files newId options
  | some (.check options) => check files options
  | some .version => return ⟨0, s!"precomp {Bootstrap.currentVersion}\n", []⟩
  | some (.help topic) => return ⟨0, helpText topic, []⟩

end StepCode.CommandLine
