/-!
# Positions in texts

Byte offsets as lines and columns.
-/

namespace StepCode.Text

/-- A line and a column, both counted from zero. -/
structure Position where
  line : Nat
  column : Nat
deriving DecidableEq, Repr

/-- The position behind all characters that end at or before the byte `offset`. -/
def positionFrom (position : Position) (offset : Nat) : List Char → Position
  | [] => position
  | c :: rest =>
      if offset < c.utf8Size then position
      else
        positionFrom (if c = '\n' then ⟨position.line + 1, 0⟩ else ⟨position.line, position.column + 1⟩)
          (offset - c.utf8Size) rest

def positionAt (text : String) (offset : Nat) : Position :=
  positionFrom ⟨0, 0⟩ offset text.toList

/-- The byte at which the line of a byte begins. -/
def lineStartFrom (start place offset : Nat) : List Char → Nat
  | [] => start
  | c :: rest =>
      let next := place + c.utf8Size
      if offset < next then start
      else lineStartFrom (if c = '\n' then next else start) next offset rest

def lineStart (text : String) (offset : Nat) : Nat :=
  lineStartFrom 0 0 offset text.toList

/-- The number of characters that end at or before the byte `offset`. -/
def charsBefore (offset : Nat) : List Char → Nat
  | [] => 0
  | c :: rest => if offset < c.utf8Size then 0 else charsBefore (offset - c.utf8Size) rest + 1

/-- The number of characters in front of the one whose last byte is at `offset`. -/
def charEndingAt? (offset : Nat) : List Char → Option Nat
  | [] => none
  | c :: rest =>
      if offset + 1 = c.utf8Size then some 0
      else if offset < c.utf8Size then none
      else (charEndingAt? (offset - c.utf8Size) rest).map (· + 1)

end StepCode.Text
