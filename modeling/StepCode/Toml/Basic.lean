/-!
# TOML trees

Settings files are TOML.  A tree keeps where each key and value was written, and how each table came
about, since that decides whether it may be opened again.
-/

namespace StepCode

namespace Toml

/-- How a table came about. -/
inductive Origin where
  /-- By a header of its own. -/
  | header
  /-- As the parent of a table with a header. -/
  | implied
  /-- By a dotted key. -/
  | dotted
  /-- Written in braces; it is complete. -/
  | inline
deriving DecidableEq, Repr

/-- A key with the byte offsets of the key and of its value. -/
structure Key where
  name : String
  start : Nat
  value : Nat
deriving DecidableEq, Repr

end Toml

/-- A TOML value. -/
inductive Toml where
  | text (s : String)
  | int (i : Int)
  | float (x : Float)
  | bool (b : Bool)
  /-- A date or a time; nothing here reads one. -/
  | date
  | array (items : List (Nat × Toml))
  | table (origin : Toml.Origin) (entries : List (Toml.Key × Toml))
  /-- An array of tables with headers, last table first. -/
  | tables (items : List (List (Toml.Key × Toml)))
deriving Repr, Inhabited

namespace Toml

abbrev Entries := List (Key × Toml)

def find (name : String) : Entries → Option Toml
  | [] => none
  | (key, value) :: rest => if key.name = name then some value else find name rest

def replace (name : String) (value : Toml) : Entries → Entries
  | [] => []
  | (key, old) :: rest =>
      if key.name = name then (key, value) :: rest else (key, old) :: replace name value rest

def erase (name : String) (entries : Entries) : Entries :=
  entries.filter (·.1.name != name)

/-- One part of a dotted key, with its byte offset. -/
structure Part where
  name : String
  start : Nat
deriving DecidableEq, Repr

/-- Follow `path` and change the entries of the table it leads to.  Tables that are missing are made
with origin `make`.  Dotted keys must not lead through a table that has a header, and nothing leads
into a value. -/
def update (make : Origin) (change : Origin → Entries → Option Entries) :
    (path : List Part) → Origin → Entries → Option Entries
  | [], origin, entries => change origin entries
  | part :: path, _, entries =>
      match find part.name entries with
      | none => do
          let inner ← update make change path make []
          return entries ++ [(⟨part.name, part.start, part.start⟩, .table make inner)]
      | some (.table origin inner) =>
          if origin = .inline ∨ (make = .dotted ∧ origin = .header) then none
          else do
            let inner ← update make change path origin inner
            return replace part.name (.table origin inner) entries
      | some (.tables (last :: earlier)) => do
          let last ← update make change path .header last
          return replace part.name (.tables (last :: earlier)) entries
      | some _ => none

/-- Add a new entry at the end; a key must not come twice. -/
def addEntry (key : Key) (value : Toml) (entries : Entries) : Option Entries :=
  match find key.name entries with
  | some _ => none
  | none => some (entries ++ [(key, value)])

/-- Store a value under a dotted key, starting from the table at `here`. -/
def store (here : List Part) (path : List Part) (last : Key) (value : Toml) (root : Entries) :
    Option Entries :=
  let inside (origin : Origin) (entries : Entries) : Option Entries :=
    update .dotted
      (fun origin entries =>
        if decide (origin = .dotted) == path.isEmpty then none else addEntry last value entries)
      path (if path.isEmpty then .header else origin) entries
  update .implied inside here .header root

/-- Open the table of a header; `start` is where the header begins.  A table that was only implied
so far counts from its header on. -/
def openTable (path : List Part) (last : Part) (start : Nat) (root : Entries) : Option Entries :=
  let entry (inner : Entries) : Key × Toml := (⟨last.name, last.start, start⟩, .table .header inner)
  update .implied
    (fun _ entries =>
      match find last.name entries with
      | none => some (entries ++ [entry []])
      | some (.table .implied inner) => some (erase last.name entries ++ [entry inner])
      | some _ => none)
    path .header root

/-- Begin another table of an array of tables. -/
def openArray (path : List Part) (last : Part) (start : Nat) (root : Entries) : Option Entries :=
  update .implied
    (fun _ entries =>
      match find last.name entries with
      | none => some (entries ++ [(⟨last.name, last.start, start⟩, .tables [[]])])
      | some (.tables items) => some (replace last.name (.tables ([] :: items)) entries)
      | some _ => none)
    path .header root

end Toml

end StepCode
