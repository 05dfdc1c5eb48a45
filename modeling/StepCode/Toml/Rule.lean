/-!
# Rules of a grammar

A rule reads a value from the front of a text.  When it cannot, either it does not apply, so that
another rule may be tried at the same place, or the text is wrong whatever rule is tried.  Both say
at which byte that was seen, and the last rule that was tried has the last word.
-/

namespace StepCode.Toml

/-- The unread characters and the number of bytes before them. -/
structure Cursor where
  rest : List Char
  offset : Nat
deriving DecidableEq, Repr

/-- How a rule ended. -/
inductive Step (α : Type) where
  /-- The rule applies; reading goes on behind it. -/
  | read (value : α) (next : Cursor)
  /-- The rule does not apply, as was seen at this byte. -/
  | miss (offset : Nat)
  /-- The text is wrong at this byte. -/
  | fault (offset : Nat)
deriving Repr

/-- A rule of the grammar. -/
def Rule (α : Type) : Type := Cursor → Step α

namespace Rule

variable {α β : Type}

instance : Monad Rule where
  pure a := fun cursor => .read a cursor
  bind rule next := fun cursor =>
    match rule cursor with
    | .read a after => next a after
    | .miss offset => .miss offset
    | .fault offset => .fault offset

instance : OrElse (Rule α) where
  orElse first second := fun cursor =>
    match first cursor with
    | .miss _ => second () cursor
    | step => step

/-- The byte at which reading stands. -/
def place : Rule Nat := fun cursor => .read cursor.offset cursor

/-- The next character, which is not passed. -/
def next? : Rule (Option Char) := fun cursor => .read cursor.rest.head? cursor

/-- Does not apply here. -/
def miss : Rule α := fun cursor => .miss cursor.offset

/-- Applies at the end of the text only. -/
def atEnd : Rule Unit := fun cursor =>
  if cursor.rest.isEmpty then .read () cursor else .miss cursor.offset

/-- One character of a class. -/
def satisfy (holds : Char → Bool) : Rule Char := fun cursor =>
  match cursor.rest with
  | c :: rest =>
      if holds c then .read c ⟨rest, cursor.offset + c.utf8Size⟩ else .miss cursor.offset
  | [] => .miss cursor.offset

def expect (c : Char) : Rule Unit := do
  discard (satisfy (· == c))

/-- Given characters of one byte each. -/
def word (chars : List Char) : Rule Unit := fun cursor =>
  if chars.isPrefixOf cursor.rest then
    .read () ⟨cursor.rest.drop chars.length, cursor.offset + chars.length⟩
  else .miss cursor.offset

/-- The longest run of characters of a class. -/
def span (holds : Char → Bool) : Rule (List Char) := fun cursor =>
  let run := cursor.rest.takeWhile holds
  .read run ⟨cursor.rest.dropWhile holds,
    cursor.offset + run.foldl (fun size c => size + c.utf8Size) 0⟩

/-- Exactly `count` characters of a class of characters of one byte each. -/
def exactly (count : Nat) (holds : Char → Bool) : Rule (List Char) := fun cursor =>
  let run := cursor.rest.take count
  if run.length = count ∧ run.all holds then
    .read run ⟨cursor.rest.drop count, cursor.offset + count⟩
  else .miss cursor.offset

/-- From here on the text is wrong if the rule does not apply. -/
def commit (rule : Rule α) : Rule α := fun cursor =>
  match rule cursor with
  | .miss offset => .fault offset
  | step => step

/-- Applies always: with nothing read where `rule` does not apply. -/
def optional (rule : Rule α) : Rule (Option α) := fun cursor =>
  match rule cursor with
  | .read a after => .read (some a) after
  | .miss _ => .read none cursor
  | .fault offset => .fault offset

/-- Applies where `rule` does and passes nothing; whatever is wrong is wrong here. -/
def ahead (rule : Rule α) : Rule Unit := fun cursor =>
  match rule cursor with
  | .read _ _ => .read () cursor
  | .miss _ => .miss cursor.offset
  | .fault _ => .fault cursor.offset

/-- The characters that a rule passes. -/
def passed (rule : Rule α) : Rule (List Char) := fun cursor =>
  match rule cursor with
  | .read _ after => .read (cursor.rest.take (cursor.rest.length - after.rest.length)) after
  | .miss offset => .miss offset
  | .fault offset => .fault offset

/-- Does not apply, seen where it began, if what was read has no value under `f`. -/
def checked (rule : Rule α) (f : α → Option β) : Rule β := fun cursor =>
  match rule cursor with
  | .read a after =>
      match f a with
      | some b => .read b after
      | none => .miss cursor.offset
  | .miss offset => .miss offset
  | .fault offset => .fault offset

/-- The text is wrong where the rule began if what was read has no value under `f`. -/
def required (rule : Rule α) (f : α → Option β) : Rule β := fun cursor =>
  match rule cursor with
  | .read a after =>
      match f a with
      | some b => .read b after
      | none => .fault cursor.offset
  | .miss offset => .miss offset
  | .fault offset => .fault offset

/-- Apply a rule as often as it applies, at most `fuel` times. -/
def repeatUpTo (rule : Rule α) : (fuel : Nat) → Rule (List α)
  | 0 => pure []
  | fuel + 1 => fun cursor =>
      match rule cursor with
      | .read a after =>
          match repeatUpTo rule fuel after with
          | .read more last => .read (a :: more) last
          | .miss offset => .miss offset
          | .fault offset => .fault offset
      | .miss _ => .read [] cursor
      | .fault offset => .fault offset

/-- As often as the rule applies; each time it has to pass something. -/
def many (rule : Rule α) : Rule (List α) := fun cursor =>
  repeatUpTo rule cursor.rest.length cursor

/-- Once or more. -/
def many1 (rule : Rule α) : Rule (List α) := do
  let first ← rule
  return first :: (← many rule)

/-- One or more items with a separator between them; a separator behind the last is left. -/
def separated1 (item : Rule α) (separator : Char) : Rule (List α) := do
  let first ← item
  return first :: (← many do expect separator; item)

/-- Any number of items with a separator between them. -/
def separated (item : Rule α) (separator : Char) : Rule (List α) :=
  separated1 item separator <|> pure []

end Rule

end StepCode.Toml
