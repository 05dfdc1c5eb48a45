import StepCode.Toml.Literal

/-!
# Blanks, comments and strings of TOML

What may stand between values, and the four kinds of strings.  A line break inside a string counts as
one character, however it is written.
-/

namespace StepCode.Toml.Grammar

open Rule

def isBlank (c : Char) : Bool := c == ' ' || c == '\t'

/-- A character that may stand in a comment. -/
def inComment (c : Char) : Bool := c == '\t' || (32 ≤ c.toNat && c.toNat ≠ 127)

def blanks : Rule Unit := discard (span isBlank)

def comment : Rule Unit := do
  expect '#'
  discard (span inComment)

/-- Does not apply, which is seen behind a character of one byte and in front of a longer one. -/
def missBehind (c : Char) : Rule Unit := fun cursor =>
  .miss (if c.utf8Size = 1 then cursor.offset else cursor.offset - c.utf8Size)

/-- A line break, with or without a carriage return. -/
def newline : Rule Unit := do
  let c ← satisfy fun _ => true
  if c = '\n' then return
  else if c = '\r' then expect '\n'
  else missBehind c

/-- What ends a line: blanks, a comment, and a line break or the end. -/
def lineEnd : Rule Unit := do
  blanks
  discard (optional comment)
  newline <|> atEnd

/-- Pass blank lines and the blanks that follow them; `fuel` bounds their number. -/
def blankLinesUpTo : (fuel : Nat) → Rule Unit
  | 0 => blanks
  | fuel + 1 => do
      blanks
      match ← next? with
      | some '#' => do comment; newline; blankLinesUpTo fuel
      | some '\n' => do newline; blankLinesUpTo fuel
      | some '\r' => do newline; blankLinesUpTo fuel
      | _ => return

/-- Blanks, comments and line breaks.  A comment has to be followed by a line break, and a carriage
return by the rest of one. -/
def blankLines : Rule Unit := fun cursor =>
  blankLinesUpTo cursor.rest.length cursor

/-- A character that stands for itself in double quotes. -/
def isPlain (c : Char) : Bool := inComment c && c != '"' && c != '\\'

def apostrophe : Char := Char.ofNat 39

/-- A character that stands for itself in single quotes. -/
def isRaw (c : Char) : Bool := inComment c && c != apostrophe

/-- The character for a single-letter escape. -/
def escape? (c : Char) : Option Char :=
  if c = '"' ∨ c = '\\' then some c
  else if c = 'b' then some (Char.ofNat 8)
  else if c = 't' then some '\t'
  else if c = 'n' then some '\n'
  else if c = 'f' then some (Char.ofNat 12)
  else if c = 'r' then some '\r'
  else none

/-- A character by its code in hexadecimal digits. -/
def codePoint (size : Nat) : Rule Char :=
  checked (exactly size isHexDigit) fun digits =>
    let code := baseValue 16 digits
    if code.isValidChar then some (Char.ofNat code) else none

/-- A backslash and what it escapes; a character that cannot be escaped makes the text wrong. -/
def escaped : Rule Char := do
  expect '\\'
  let c ← satisfy fun _ => true
  match escape? c with
  | some plain => return plain
  | none =>
      if c = 'u' then commit (codePoint 4)
      else if c = 'U' then commit (codePoint 8)
      else
        commit (missBehind c)
        return c

/-- A string in double quotes on one line. -/
def basicText : Rule String := do
  expect '"'
  let chars ← many (satisfy isPlain <|> escaped)
  commit (expect '"')
  return String.ofList chars

/-- A string in single quotes on one line. -/
def rawText : Rule String := do
  expect apostrophe
  let chars ← span isRaw
  commit (expect apostrophe)
  return String.ofList chars

/-- A backslash at the end of a line, with all blanks and line breaks that follow it. -/
def joinedLine : Rule Unit := do
  expect '\\'
  blanks
  newline
  discard (many (newline <|> discard (satisfy isBlank)))

/-- A piece of a string in three double quotes. -/
def basicPiece : Rule (List Char) :=
  (do return [← satisfy isPlain]) <|> (do joinedLine; return []) <|>
    (do return [← escaped]) <|> (do newline; return ['\n'])

/-- A piece of a string in three single quotes. -/
def rawPiece : Rule (List Char) :=
  (do return [← satisfy isRaw]) <|> (do newline; return ['\n'])

/-- Two quotes or one, in front of what `follows`. -/
def quotesBefore {α : Type} (quote : Char) (follows : Rule α) : Rule (List Char) :=
  (do word [quote, quote]; ahead follows; return [quote, quote]) <|>
    (do expect quote; ahead follows; return [quote])

/-- A string in three quotes.  One or two quotes may stand between pieces and before the closing
ones, and a line break right behind the opening ones does not count. -/
def longText (quote : Char) (piece : Rule (List Char)) : Rule String := do
  let three := word [quote, quote, quote]
  three
  discard (optional newline)
  commit do
    let first ← many piece
    let more ← many do
      let quotes ← quotesBefore quote piece
      return quotes ++ (← many1 piece).flatten
    let last ← optional (quotesBefore quote three)
    three
    return String.ofList (first.flatten ++ more.flatten ++ last.getD [])

/-- A string of any kind. -/
def text : Rule String :=
  longText '"' basicPiece <|> basicText <|> longText apostrophe rawPiece <|> rawText

end StepCode.Toml.Grammar
