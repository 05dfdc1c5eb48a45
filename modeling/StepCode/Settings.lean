import StepCode.Toml.Reader

/-!
# Settings

What a rebuild can be told.  Every setting has a default, so an empty document is a valid settings
file; a key that is no setting is an error.
-/

namespace StepCode

/-- The grid on which hats and definitions are placed. -/
structure Grid where
  xOffset : Float
  yOffset : Float
  /-- Rows of a column before the next column begins. -/
  rows : Nat
deriving DecidableEq, Repr

def Grid.default : Grid := ⟨250.0, 150.0, 6⟩

structure Settings where
  /-- Size-reduce compiled code and the bootstrap. -/
  minify : Bool
  /-- Comments of the stage that end like this are kept. -/
  commentSuffix : String
  grid : Grid
deriving DecidableEq, Repr

def Settings.default : Settings := ⟨true, "// _twconfig_", .default⟩

/-- A setting that does not exist or has a value of the wrong kind, at a byte offset. -/
abbrev SettingsReading (α : Type) := Except Nat α

namespace Toml

def asBool (start : Nat) : Toml → SettingsReading Bool
  | .bool b => .ok b
  | _ => .error start

def asText (start : Nat) : Toml → SettingsReading String
  | .text s => .ok s
  | _ => .error start

/-- A number; integers count as numbers. -/
def asFloat (start : Nat) : Toml → SettingsReading Float
  | .float x => .ok x
  | .int i => .ok (Float.ofInt i)
  | _ => .error start

def asNat (start : Nat) : Toml → SettingsReading Nat
  | .int i => if 0 ≤ i then .ok i.toNat else .error start
  | _ => .error start

end Toml

namespace Grid

def setting (grid : Grid) (key : Toml.Key) (value : Toml) : SettingsReading Grid :=
  match key.name with
  | "x_offset" => do return { grid with xOffset := ← value.asFloat key.value }
  | "y_offset" => do return { grid with yOffset := ← value.asFloat key.value }
  | "rows" => do return { grid with rows := ← value.asNat key.value }
  | _ => .error key.start

def settings : Grid → Toml.Entries → SettingsReading Grid
  | grid, [] => .ok grid
  | grid, (key, value) :: rest => do
      let grid ← grid.setting key value
      settings grid rest

/-- The settings in their order, without names; those that are missing keep their default. -/
def ofItems : List (Nat × Toml) → SettingsReading Grid
  | [] => .ok .default
  | (start, x) :: rest => do
      let grid := { Grid.default with xOffset := ← x.asFloat start }
      match rest with
      | [] => return grid
      | (start, y) :: rest => do
          let grid := { grid with yOffset := ← y.asFloat start }
          match rest with
          | [] => return grid
          | (start, rows) :: _ => return { grid with rows := ← rows.asNat start }

def ofToml (start : Nat) : Toml → SettingsReading Grid
  | .table _ entries => settings .default entries
  | .array items => ofItems items
  | _ => .error start

end Grid

namespace Settings

def setting (settings : Settings) (key : Toml.Key) (value : Toml) : SettingsReading Settings :=
  match key.name with
  | "minify" => do return { settings with minify := ← value.asBool key.value }
  | "config_comment_suffix" => do return { settings with commentSuffix := ← value.asText key.value }
  | "layout" => do return { settings with grid := ← Grid.ofToml key.value value }
  | _ => .error key.start

def ofEntries : Settings → Toml.Entries → SettingsReading Settings
  | settings, [] => .ok settings
  | settings, (key, value) :: rest => do
      let settings ← settings.setting key value
      ofEntries settings rest

/-- Read a settings file; the error is a byte offset. -/
def read (text : String) : SettingsReading Settings := do
  ofEntries .default (← Toml.read text)

end Settings

end StepCode
