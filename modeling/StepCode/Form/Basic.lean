import StepCode.ParseError

/-!
# Forms

The parenthesised tree of a source before any keyword is interpreted.  Every node knows the bytes it
was read from.
-/

namespace StepCode

inductive Atom where
  | number (x : Float)
  | text (s : String)
  | symbol (s : String)
deriving DecidableEq, Repr, Inhabited

/-- An atom or a list of forms, with its place in the source. -/
inductive Form where
  | atom (value : Atom) (span : Span)
  | list (items : List Form) (span : Span)
deriving Repr, Inhabited

namespace Form

def span : Form → Span
  | .atom _ span => span
  | .list _ span => span

def symbol? : Form → Option String
  | .atom (.symbol s) _ => some s
  | _ => none

def text? : Form → Option String
  | .atom (.text s) _ => some s
  | _ => none

/-- The symbol that a list starts with. -/
def head? : Form → Option String
  | .list (first :: _) _ => first.symbol?
  | _ => none

end Form

end StepCode
