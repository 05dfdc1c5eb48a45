import StepCode.Text.Affix

/-!
# Arguments of the command line

`SOURCE DEST` without a command means `build SOURCE DEST`.  Options may stand anywhere, and behind
`--` there are none.
-/

namespace StepCode.CommandLine

structure BuildOptions where
  source : String
  dest : String
  config : Option String
  report : Option String
deriving DecidableEq, Repr

structure CheckOptions where
  file : String
  /-- The file holds a helper, not a script. -/
  helper : Bool
  /-- Print the code in its canonical layout. -/
  pretty : Bool
deriving DecidableEq, Repr

/-- What help is asked for. -/
inductive Topic where
  | general
  | build
  | check
  | help
deriving DecidableEq, Repr

inductive Command where
  | build (options : BuildOptions)
  | check (options : CheckOptions)
  | version
  | help (topic : Topic)
deriving DecidableEq, Repr

/-- Whether an argument is an option; a lone dash is none. -/
def isOption (argument : String) : Bool :=
  Text.startsWith argument "-" && argument != "-"

/-- The first argument that is neither an option nor the value of one. -/
def firstPositional? : List String → Option String
  | [] => none
  | argument :: rest =>
      if argument = "-c" ∨ argument = "--config" ∨ argument = "--report" then
        match rest with
        | [] => none
        | _ :: rest => firstPositional? rest
      else if Text.startsWith argument "-" then firstPositional? rest
      else some argument

def commandNames : List String := ["build", "check", "help"]

/-- Name the command that is meant if none is named. -/
def withCommand (arguments : List String) : List String :=
  match firstPositional? arguments with
  | some first => if commandNames.contains first then arguments else "build" :: arguments
  | none => arguments

/-- The options that a command knows. -/
structure Grammar where
  /-- Options without a value. -/
  flags : List String
  /-- Options with a value. -/
  valued : List String
  /-- Short names of options with a value, each with its long name. -/
  short : List (Char × String)
  positionals : Nat
  topic : Topic

/-- The arguments of a command, sorted. -/
structure Sorted where
  positionals : List String
  flags : List String
  values : List (String × String)

namespace Sorted

def value? (sorted : Sorted) (name : String) : Option String :=
  (sorted.values.find? fun entry => entry.1 == name).map (·.2)

end Sorted

/-- Why the arguments of a command need no more reading. -/
inductive Early where
  | usage
  | help (topic : Topic)
deriving DecidableEq, Repr

namespace Grammar

variable (known : Grammar)

def addPositional (sorted : Sorted) (argument : String) : Except Early Sorted :=
  if sorted.positionals.length < known.positionals then
    .ok { sorted with positionals := sorted.positionals ++ [argument] }
  else .error .usage

def addFlag (sorted : Sorted) (name : String) : Except Early Sorted :=
  if sorted.flags.contains name then .error .usage
  else .ok { sorted with flags := sorted.flags ++ [name] }

def addValue (sorted : Sorted) (name value : String) : Except Early Sorted :=
  if (sorted.value? name).isSome then .error .usage
  else .ok { sorted with values := sorted.values ++ [(name, value)] }

/-- The parts of an option before and behind its first equals sign. -/
def splitValue (argument : String) : String × Option String :=
  let chars := argument.toList
  match chars.dropWhile (· != '=') with
  | [] => (argument, none)
  | _ :: value => (String.ofList (chars.takeWhile (· != '=')), some (String.ofList value))

/-- What an option asks for. -/
inductive Asked where
  | flag (name : String)
  /-- An option with its value. -/
  | valued (name value : String)
  /-- An option whose value is the next argument. -/
  | awaiting (name : String)
  | early (early : Early)

/-- Read a long option. -/
def long (argument : String) : Asked :=
  match splitValue argument with
  | (name, none) =>
      if known.flags.contains name then .flag name
      else if known.valued.contains name then .awaiting name
      else if name = "--help" then .early (.help known.topic)
      else .early .usage
  | (name, some value) =>
      if known.valued.contains name then .valued name value else .early .usage

/-- Read a short option; what follows its letter is the value, behind an equals sign or not. -/
def shortOption (letter : Char) (rest : List Char) : Asked :=
  match known.short.find? (·.1 == letter) with
  | some (_, name) =>
      match rest with
      | [] => .awaiting name
      | '=' :: value => .valued name (String.ofList value)
      | value => .valued name (String.ofList value)
  | none => .early (if letter = 'h' then .help known.topic else .usage)

def option (argument : String) : Asked :=
  match argument.toList with
  | '-' :: '-' :: _ => known.long argument
  | '-' :: letter :: rest => known.shortOption letter rest
  | _ => .early .usage

/-- Sort arguments.  Behind `--` all of them are positional. -/
def sort (sorted : Sorted) : List String → Except Early Sorted
  | [] => .ok sorted
  | argument :: rest =>
      if argument = "--" then rest.foldlM known.addPositional sorted
      else if isOption argument then
        match known.option argument with
        | .early early => .error early
        | .flag name => do sort (← addFlag sorted name) rest
        | .valued name value => do sort (← addValue sorted name value) rest
        | .awaiting name =>
            match rest with
            | [] => .error .usage
            | value :: rest =>
                if isOption value then .error .usage
                else do sort (← addValue sorted name value) rest
      else do sort (← known.addPositional sorted argument) rest

end Grammar

def buildGrammar : Grammar where
  flags := ["--no-color"]
  valued := ["--config", "--report"]
  short := [('c', "--config")]
  positionals := 2
  topic := .build

def checkGrammar : Grammar where
  flags := ["--no-color", "--helper", "--pretty"]
  valued := []
  short := []
  positionals := 1
  topic := .check

/-- The command that sorted arguments make; none if some are missing. -/
def finish (make : Sorted → Option Command) : Except Early Sorted → Option Command
  | .ok sorted => make sorted
  | .error (.help topic) => some (.help topic)
  | .error .usage => none

def buildCommand (sorted : Sorted) : Option Command :=
  match sorted.positionals with
  | [source, dest] =>
      some (.build ⟨source, dest, sorted.value? "--config", sorted.value? "--report"⟩)
  | _ => none

def checkCommand (sorted : Sorted) : Option Command :=
  match sorted.positionals with
  | [file] =>
      some (.check ⟨file, sorted.flags.contains "--helper", sorted.flags.contains "--pretty"⟩)
  | _ => none

def helpCommand : List String → Option Command
  | [] => some (.help .general)
  | ["build"] => some (.help .build)
  | ["check"] => some (.help .check)
  | ["help"] => some (.help .help)
  | _ => none

/-- Read the arguments in front of the command, then those behind it. -/
def command? (colorless : Bool) : List String → Option Command
  | [] => none
  | "build" :: rest => finish buildCommand (buildGrammar.sort ⟨[], [], []⟩ rest)
  | "check" :: rest => finish checkCommand (checkGrammar.sort ⟨[], [], []⟩ rest)
  | "help" :: rest => helpCommand rest
  | "--version" :: _ => some .version
  | "--help" :: _ => some (.help .general)
  | "--no-color" :: rest => if colorless then none else command? true rest
  | argument :: _ =>
      match argument.toList with
      | '-' :: 'V' :: _ => some .version
      | '-' :: 'h' :: _ => some (.help .general)
      | _ => none

/-- The command that arguments ask for; none if they are not understood. -/
def Command.ofArguments? (arguments : List String) : Option Command :=
  command? false (withCommand arguments)

end StepCode.CommandLine
