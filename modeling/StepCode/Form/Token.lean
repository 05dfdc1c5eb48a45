import StepCode.Decimal.Reading
import StepCode.Form.Basic
import StepCode.Text.Blank

/-!
# Tokens

The scanner cuts a source into parentheses, strings and words, and drops blanks and comments.  It
goes through the characters once; a `Mode` says what it is in the middle of.  A fault ends the
tokens, so everything in front of it is still known.
-/

namespace StepCode

inductive Token where
  | openList (start : Nat)
  | closeList (start : Nat)
  | atom (value : Atom) (span : Span)
deriving DecidableEq, Repr

/-- The tokens of a source, up to the fault if there is one. -/
structure Tokens where
  list : List Token
  fault : Option ParseError
deriving DecidableEq, Repr

namespace Tokens

def done : Tokens := ⟨[], none⟩

def failed (problem : Problem) (start stop : Nat) : Tokens := ⟨[], some ⟨problem, ⟨start, stop⟩⟩⟩

def cons (token : Token) (rest : Tokens) : Tokens := ⟨token :: rest.list, rest.fault⟩

end Tokens

namespace Token

/-- Characters that end a word. -/
def endsWord (c : Char) : Bool :=
  Text.isBlank c || c == '(' || c == ')' || c == '"' || c == ';'

/-- A word is tried as a number only if it starts with a digit, or with a sign or point that a digit
or point follows. -/
def startsNumber : List Char → Bool
  | [] => false
  | c :: rest =>
      c.isDigit ||
        ((c == '-' || c == '+' || c == '.') &&
          match rest with
          | [] => false
          | d :: _ => d.isDigit || d == '.')

/-- A word is a number or a symbol. -/
def ofWord (chars : List Char) : Atom :=
  if startsNumber chars then
    match Decimal.read? chars with
    | some x => .number x
    | none => .symbol (String.ofList chars)
  else .symbol (String.ofList chars)

/-- The character that an escape stands for. -/
def escape? (c : Char) : Option Char :=
  if c = '"' ∨ c = '\\' then some c
  else if c = 'n' then some '\n'
  else if c = 't' then some '\t'
  else if c = 'r' then some '\r'
  else none

/-- What the scanner is in the middle of.  Words and strings keep where they started and what was
read of them, last character first. -/
inductive Mode where
  | gap
  | comment
  | word (start : Nat) (read : List Char)
  | text (start : Nat) (read : List Char)
  | escape (start : Nat) (read : List Char)
deriving DecidableEq, Repr

/-- What a character outside any token begins: a token of its own, if it is one, and the mode that
follows it. -/
def begin (c : Char) (at_ : Nat) : Option Token × Mode :=
  if Text.isBlank c then (none, .gap)
  else if c = ';' then (none, .comment)
  else if c = '(' then (some (.openList at_), .gap)
  else if c = ')' then (some (.closeList at_), .gap)
  else if c = '"' then (none, .text at_ [])
  else (none, .word at_ [c])

/-- The token of a finished word. -/
def word (start stop : Nat) (read : List Char) : Token :=
  .atom (ofWord read.reverse) ⟨start, stop⟩

/-- Scan the characters from byte `at_` on. -/
def scan : Mode → (at_ : Nat) → List Char → Tokens
  | .gap, _, [] => .done
  | .comment, _, [] => .done
  | .word start read, at_, [] => .cons (word start at_ read) .done
  | .text start _, at_, [] => .failed .unterminatedText start at_
  | .escape start _, at_, [] => .failed .unterminatedText start at_
  | .gap, at_, c :: rest =>
      let (token, mode) := begin c at_
      let rest := scan mode (at_ + c.utf8Size) rest
      match token with
      | some token => .cons token rest
      | none => rest
  | .comment, at_, c :: rest =>
      scan (if c = '\n' then .gap else .comment) (at_ + c.utf8Size) rest
  | .word start read, at_, c :: rest =>
      if endsWord c then
        let (token, mode) := begin c at_
        let rest := scan mode (at_ + c.utf8Size) rest
        .cons (word start at_ read)
          (match token with
          | some token => .cons token rest
          | none => rest)
      else scan (.word start (c :: read)) (at_ + c.utf8Size) rest
  | .text start read, at_, c :: rest =>
      if c = '"' then
        .cons (.atom (.text (String.ofList read.reverse)) ⟨start, at_ + 1⟩)
          (scan .gap (at_ + 1) rest)
      else if c = '\\' then scan (.escape start read) (at_ + 1) rest
      else scan (.text start (c :: read)) (at_ + c.utf8Size) rest
  | .escape start read, at_, c :: rest =>
      match escape? c with
      | some plain => scan (.text start (plain :: read)) (at_ + c.utf8Size) rest
      | none => .failed (.unknownEscape c) (at_ - 1) (at_ + c.utf8Size)

/-- The tokens of a whole source. -/
def scanSource (source : String) : Tokens :=
  scan .gap 0 source.toList

end Token

end StepCode
