import StepCode.Project.Block
import StepCode.Settings

/-!
# Layout

Hats and definitions that are kept are placed on a grid, column by column.  Each target starts with
the first slot, so the same order of blocks gives the same positions.
-/

namespace StepCode.Layout

/-- Where the next block goes, before it is known whether the column has room for it. -/
structure Cursor where
  column : Nat
  row : Nat
deriving DecidableEq, Repr

/-- A place on the grid. -/
structure Slot where
  column : Nat
  row : Nat
deriving DecidableEq, Repr

def Cursor.start : Cursor := ⟨0, 0⟩

/-- A column has at least one row. -/
def height (grid : Grid) : Nat := max grid.rows 1

/-- The next slot; a full column is left first. -/
def Cursor.slot (grid : Grid) (cursor : Cursor) : Slot :=
  if height grid < cursor.row + 1 then ⟨cursor.column + 1, 0⟩ else ⟨cursor.column, cursor.row⟩

/-- The cursor behind a slot. -/
def Slot.after (slot : Slot) : Cursor := ⟨slot.column, slot.row + 1⟩

def Slot.x (grid : Grid) (slot : Slot) : Float := Float.ofNat slot.column * grid.xOffset

def Slot.y (grid : Grid) (slot : Slot) : Float := Float.ofNat slot.row * grid.yOffset

/-- Move a block to the next slot.  A block without position stays without and takes no slot. -/
def place (grid : Grid) (cursor : Cursor) (block : Block) : Block × Cursor :=
  match block.x with
  | none => (block, cursor)
  | some _ =>
      let slot := cursor.slot grid
      ({ block with x := some (slot.x grid), y := some (slot.y grid) }, slot.after)

end StepCode.Layout
