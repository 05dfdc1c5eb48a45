import StepCode.Form.Token

/-!
# Reading forms

Tokens are put together on a stack of open lists.  A fault of the scanner counts once all tokens in
front of it are used; a list still open at the end of the source is reported at its parenthesis,
the innermost one first.
-/

namespace StepCode.Form

/-- A list that has been opened, with the items read so far, last first. -/
structure Pending where
  start : Nat
  items : List Form
deriving Repr

/-- The open lists, innermost first, and the finished top-level forms, last first. -/
structure Assembly where
  pending : List Pending
  done : List Form
deriving Repr

namespace Assembly

def start : Assembly := ⟨[], []⟩

/-- Add a finished form to the innermost open list, or to the top level. -/
def push (form : Form) : Assembly → Assembly
  | ⟨[], done⟩ => ⟨[], form :: done⟩
  | ⟨inner :: outer, done⟩ => ⟨{ inner with items := form :: inner.items } :: outer, done⟩

end Assembly

/-- Use up the tokens. -/
def assemble (fault : Option ParseError) : Assembly → List Token → Except ParseError (List Form)
  | assembly, [] =>
      match fault, assembly.pending with
      | some error, _ => .error error
      | none, [] => .ok assembly.done.reverse
      | none, inner :: _ => .error ⟨.unclosedList, ⟨inner.start, inner.start + 1⟩⟩
  | ⟨pending, done⟩, .openList start :: rest => assemble fault ⟨⟨start, []⟩ :: pending, done⟩ rest
  | ⟨[], _⟩, .closeList start :: _ => .error ⟨.unexpectedClose, ⟨start, start + 1⟩⟩
  | ⟨inner :: outer, done⟩, .closeList start :: rest =>
      let form := Form.list inner.items.reverse ⟨inner.start, start + 1⟩
      assemble fault (Assembly.push form ⟨outer, done⟩) rest
  | assembly, .atom value span :: rest =>
      assemble fault (assembly.push (.atom value span)) rest

/-- Every top-level form of a source. -/
def readAll (source : String) : Except ParseError (List Form) :=
  let tokens := Token.scanSource source
  assemble tokens.fault .start tokens.list

end StepCode.Form
