/-!
# Positions in JSON text

Reading keeps the characters that are left and the number of bytes passed.  A fault says whether the
text is malformed or stops too early, and how many bytes had been passed when that was seen.
-/

namespace StepCode.Json

/-- What is wrong with a text. -/
inductive Defect where
  | malformed
  | truncated
deriving DecidableEq, Repr

structure Fault where
  defect : Defect
  offset : Nat
deriving DecidableEq, Repr

/-- The unread characters and the number of bytes before them. -/
structure Cursor where
  rest : List Char
  offset : Nat
deriving DecidableEq, Repr

namespace Cursor

def start (text : String) : Cursor := ⟨text.toList, 0⟩

/-- The offset just behind the next byte, or the end of the text. -/
def ahead (cursor : Cursor) : Nat :=
  if cursor.rest.isEmpty then cursor.offset else cursor.offset + 1

/-- A fault seen at the next character, before passing it; at the end the text is truncated. -/
def faultAhead (cursor : Cursor) : Fault :=
  ⟨if cursor.rest.isEmpty then .truncated else .malformed, cursor.ahead⟩

def isBlank (c : Char) : Bool :=
  c == ' ' || c == '\n' || c == '\t' || c == '\r'

/-- Pass the blanks in front of the next token. -/
def skipBlanks (cursor : Cursor) : Cursor :=
  ⟨cursor.rest.dropWhile isBlank, cursor.offset + (cursor.rest.takeWhile isBlank).length⟩

end Cursor

end StepCode.Json
